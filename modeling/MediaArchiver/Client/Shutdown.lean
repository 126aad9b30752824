/-
# MediaArchiver.Client.Shutdown -- what a client gives back when it ends

At the end of a poll the client looks whether it is to shut down, and if it is, it aborts over the object
it has, if that is connected. No handler prepares for that. So what the daemon still holds for the client
is given back exactly if the object happens to be one that the daemon knows, and a file happens to be
open there (`gives_back_iff`).

Both can be missing. The object is dropped after a download and while the client waits for a file; an
object that took the place of a lost one has not authenticated. And a session that has closed its source
and could not open the temp file holds its file without an open stream, which `abort` does not look for.
-/
import MediaArchiver.Client.Network

namespace MediaArchiver

open Lib (Machine)
open Daemon (Single)

namespace Line

/-- The call at the end was answered. -/
def Aborted {σ : Type} (l l' : Line σ) : Prop :=
  ∃ known, l'.calls = l.calls ++ [⟨.abort, known, some true⟩]

/-- The object is connected to a session with an open file. -/
def CanAbort (n : NetworkAnswers) (l : Line Daemon) : Prop :=
  ∃ rpc cli, l.rpc = some rpc ∧ n.isConnected rpc.conn = true ∧
    l.server.session rpc.conn = some cli ∧ ¬ cli.Closed

end Line

namespace Network

/-- What is true of every client and its daemon, also after the client has ended. -/
structure Paired (token : Nat) (p : Process Daemon) : Prop where
  identity : p.client.token = token
  single : Single (toString token).toList p.line.server

variable {p : Process Daemon} {token : Nat}

theorem Paired.handle (h : Paired token p) (cfg : DaemonConfig) (ccfg : ClientSettings)
    (n : NetworkAnswers) (a : LocalAnswers) : Paired token (p.handle (n.remote cfg .direct) ccfg a) := by
  by_cases hrun : p.ending = none
  · obtain ⟨l, cl, answer, hhandles, heq⟩ :=
      Process.handle_of_running (n.remote cfg .direct) ccfg a hrun
    rw [heq]
    refine ⟨hhandles.token.trans h.identity, ?_⟩
    apply hhandles.server _ h.single
    rw [h.identity]
    exact Client.serverKeeps_single cfg n _
  · rw [Process.handle_of_ended hrun]
    exact h

theorem Paired.signal (h : Paired token p) (request : Option Bool) : Paired token (p.signal request) := by
  cases request with
  | none => exact h
  | some forced => exact ⟨h.identity, h.single⟩

theorem Paired.finish (h : Paired token p) (cfg : DaemonConfig) (n : NetworkAnswers) :
    Paired token (p.finish (n.remote cfg .direct)) := by
  rcases Process.finish_cases (n.remote cfg .direct) p with heq | ⟨-, -, l, hl, heq⟩
  · rw [heq]
    exact h
  · rw [heq]
    refine ⟨h.identity, ?_⟩
    rcases hl with rfl | rfl
    · exact h.single
    · have hkeeps := Client.serverKeeps_single cfg n (toString token).toList
      have habort : p.line.abort (n.remote cfg .direct) = (_, _) := rfl
      have hafter := Client.keeps_call hkeeps.abort habort h.single
      exact hafter

theorem paired_run (cfg : DaemonConfig) (ccfg : ClientSettings) (token : Nat) (db : Store)
    (es : List NetworkEvent) : Paired token ((machine cfg ccfg).run (start token db) es) := by
  apply (machine cfg ccfg).invariant_always
  · intro p e h
    cases e with
    | poll n a request => exact ((h.handle cfg ccfg n a).signal request).finish cfg n
    | stop forced => exact h.signal (some forced)
    | background e he =>
      refine ⟨h.identity, ?_⟩
      apply (Daemon.step_does cfg p.line.server e).single h.single
      rintro id junk token' rfl
      exact he.elim
  · exact ⟨rfl, Daemon.single_start _ db⟩

/-- In a poll that shuts the client down, a file that is still held when the poll looks at the flag is given
back, by a call that is answered, exactly if the object is connected to a session with an open file. -/
theorem gives_back_iff (cfg : DaemonConfig) (ccfg : ClientSettings) (token : Nat) (db : Store)
    (es : List NetworkEvent) (n atEnd : NetworkAnswers) (a : LocalAnswers) (request : Option Bool)
    (habort : atEnd.abortFate = .answered) (id : SessionId) (file : Nat) :
    let p := (machine cfg ccfg).run (start token db) es
    let q := (p.handle (n.remote cfg .direct) ccfg a).signal request
    let ended := q.finish (atEnd.remote cfg .direct)
    q.ending = none → q.client.shutdown = true → q.line.server.Holds id file →
      ((q.line.Aborted ended.line ∧ ended.line.server.GivenBack file) ↔ q.line.CanAbort atEnd) := by
  intro p q ended hrun hshut hholds
  have hpaired := (paired_run cfg ccfg token db es).handle cfg ccfg n a
  have hsingle : Single (toString token).toList q.line.server := (hpaired.signal request).single
  have hgoes : ¬ (q.ending.isSome || !q.client.shutdown) = true := by simp [hrun, hshut]
  have hkept : ended.line.server.Holds id file → ¬ ended.line.server.GivenBack file :=
    fun hstill hback => hback.1 id hstill
  cases hrpc : q.line.rpc with
  | none =>
    refine iff_of_false (fun hleft => hkept ?_ hleft.2) ?_
    · have hended : ended.line = q.line.drop := by
        simp only [ended, Process.finish, if_neg hgoes, hrpc]
      rw [hended]
      exact hholds
    · rintro ⟨rpc, cli, hsome, -⟩
      cases hrpc.symm.trans hsome
  | some rpc =>
    by_cases hup : atEnd.isConnected rpc.conn = true
    · -- the call is made
      have hcall : q.line.abort (atEnd.remote cfg .direct) = _ := Line.call_of_some hrpc
      have hup' : (atEnd.remote cfg .direct).isConnected rpc.conn q.line.server = true := hup
      have hended : ended.line = (q.line.abort (atEnd.remote cfg .direct)).1.drop := by
        simp only [ended, Process.finish, if_neg hgoes, hrpc, hup', if_true]
      have hremote : (atEnd.remote cfg .direct).abort rpc.conn q.line.server
          = relay atEnd.refused (Daemon.Srv.abort rpc.conn) q.line.server := by
        simp only [NetworkAnswers.remote, Transport.direct, habort, Fate.deliver]
      have hserver : ended.line.server = (Daemon.Srv.abort rpc.conn q.line.server).1 := by
        rw [hended, hcall, hremote]
        rfl
      by_cases hcan : q.line.CanAbort atEnd
      · refine iff_of_true ?_ hcan
        obtain ⟨rpc', cli, hsome, -, hcli, hopen⟩ := hcan
        obtain rfl := Option.some.inj (hsome.symm.trans hrpc)
        obtain ⟨hok, hback⟩ := hsingle.givenBack_abort hcli hopen hholds
        refine ⟨⟨rpc'.authenticated, ?_⟩, hserver ▸ hback⟩
        rw [hended, hcall, hremote]
        simp [Line.drop, relay, hok, Except.mapError, Except.toOption]
      · refine iff_of_false (fun hleft => hkept ?_ hleft.2) hcan
        rw [hserver]
        apply hsingle.holds_abort _ hholds
        intro cli hcli
        by_contra hopen
        exact hcan ⟨rpc, cli, hrpc, hup, hcli, hopen⟩
    · refine iff_of_false (fun hleft => hkept ?_ hleft.2) ?_
      · have hup' : ¬ (atEnd.remote cfg .direct).isConnected rpc.conn q.line.server = true := hup
        have hended : ended.line = q.line.drop := by
          simp only [ended, Process.finish, if_neg hgoes, hrpc, if_neg hup']
        rw [hended]
        exact hholds
      · rintro ⟨rpc', cli, hsome, hconn, -⟩
        obtain rfl := Option.some.inj (hsome.symm.trans hrpc)
        exact hup hconn

/-- The watcher discovers a file, and the client gets it. -/
def downloading : List NetworkEvent :=
  [.background (Daemon.discovers "a.mov".toList []) trivial, smooth, smooth, smooth]

/-- A stop is requested while the client downloads. -/
theorem gives_back_download :
    let p := (machine gCfg .gCfg).run (start 3 .empty) (downloading ++ [.stop false])
    let q := (p.handle ((NetworkAnswers.working 1).remote gCfg .direct) .gCfg (.working [9])).signal none
    let ended := q.finish ((NetworkAnswers.working 1).remote gCfg .direct)
    q.line.server.Holds 1 1 ∧ q.line.Aborted ended.line ∧ ended.line.server.GivenBack 1 := by
  intro p q ended
  have hconn : q.line.rpc.map Rpc.conn = some 1 := by decide +kernel
  obtain ⟨rpc, hrpc, hid⟩ := Option.map_eq_some_iff.mp hconn
  have hsession : (q.line.server.session 1).map (fun cli => (cli.originalFileId, cli.inFile.isOpen))
      = some (1, true) := by decide +kernel
  obtain ⟨cli, hcli, hfile⟩ := Option.map_eq_some_iff.mp hsession
  obtain ⟨hfile, hopen⟩ := Prod.mk.inj hfile
  have hholds : q.line.server.Holds 1 1 := ⟨by decide +kernel, cli, hcli, hfile⟩
  have hcan : q.line.CanAbort (.working 1) := by
    refine ⟨rpc, cli, hrpc, rfl, ?_, ?_⟩
    · rw [hid]
      exact hcli
    · rintro ⟨hclosed, -⟩
      cases hopen.symm.trans hclosed
  have hrun : q.ending = none := by decide +kernel
  have hshut : q.client.shutdown = true := by decide +kernel
  have hiff := gives_back_iff gCfg .gCfg 3 .empty (downloading ++ [NetworkEvent.stop false])
    (.working 1) (.working 1) (.working [9]) none rfl 1 1 hrun hshut hholds
  exact ⟨hholds, hiff.mpr hcan⟩

/-- The client is stopped while it encodes. It has no object then, and the row stays started. -/
theorem keeps_encoding :
    let p := (machine gCfg .gCfg).run (start 3 .empty) (downloading ++ [smooth, smooth, .stop true])
    let q := (p.handle ((NetworkAnswers.working 1).remote gCfg .direct) .gCfg (.working [9])).signal none
    let ended := q.finish ((NetworkAnswers.working 1).remote gCfg .direct)
    p.client.mainState = .waitForEncodingFinished ∧ q.ending = none ∧ q.client.shutdown = true
      ∧ q.line.server.Holds 1 1 ∧ ended.ending = some .finished
      ∧ ended.line.server.db.statuses 1 = [1]
      ∧ ¬ (q.line.Aborted ended.line ∧ ended.line.server.GivenBack 1) := by
  intro p q ended
  have hsession : (q.line.server.session 1).map ConnectedClient.originalFileId = some 1 := by
    decide +kernel
  have hstatuses : ended.line.server.db.statuses 1 = [1] := by decide +kernel
  refine ⟨by decide +kernel, by decide +kernel, by decide +kernel,
    ⟨by decide +kernel, Option.map_eq_some_iff.mp hsession⟩, by decide +kernel, hstatuses, ?_⟩
  rintro ⟨-, -, -, hzero⟩
  have hone := hzero 1 (by rw [hstatuses]; exact List.mem_singleton_self 1)
  cases hone

end Network

end MediaArchiver
