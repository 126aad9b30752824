/-
# MediaArchiver.Client.Idleness -- what the daemon holds open for a client that is idle

The client is idle or on its way back to it; the daemon has one session for it, wherever the client last
connected. The two agree if nothing is open there then. A file that is still open is refused ("already
open") whatever the client asks for next, and an idle client never aborts.

They get out of step in two ways. A file is opened for a request whose answer is lost: the client goes on
waiting for a file it already has. Or the system fails while the client authenticates to post a result:
it forgets the job, and the session keeps what is open. `agrees_run` says that there are no others.
-/
import MediaArchiver.Client.Network

namespace MediaArchiver

open Lib (Machine)
open Daemon (Single Closed Grants)

/-! ## One call -/

namespace Line

variable {cfg : DaemonConfig} {n : NetworkAnswers} {l l' : Line Daemon} {token : Text}

/-- The connection that the next call goes to: that of the object, if it is up, or a new one. -/
def target (n : NetworkAnswers) (l : Line Daemon) : Option SessionId :=
  match l.rpc with
  | some rpc => if n.isConnected rpc.conn then some rpc.conn else n.connect.toOption
  | none => n.connect.toOption

theorem target_of_down (hdown : ∀ old, l.rpc = some old → n.isConnected old.conn = false) :
    l.target n = n.connect.toOption := by
  unfold target
  cases hold : l.rpc with
  | none => rfl
  | some old => simp only [hdown old hold, Bool.false_eq_true, if_false]

/-- The daemon does not notice the check. -/
theorem server_of_remote_checkCreateRpc {answer : Except Exn Unit}
    (h : l.checkCreateRpc (n.remote cfg .direct) = (l', answer)) : l'.server = l.server := by
  rcases server_of_checkCreateRpc h with heq | heq
  · exact heq
  · exact heq

theorem target_of_checkCreateRpc (h : l.checkCreateRpc (n.remote cfg .direct) = (l', .ok ())) :
    ∃ rpc, l'.rpc = some rpc ∧ l.target n = some rpc.conn := by
  obtain ⟨rpc, hrpc, ⟨rfl, hup⟩ | ⟨hdown, s, hserver, -⟩⟩ := checkCreateRpc_ok h
  · refine ⟨rpc, hrpc, ?_⟩
    have hup' : n.isConnected rpc.conn = true := hup
    simp only [target, hrpc, hup', if_true]
  · refine ⟨rpc, hrpc, ?_⟩
    have hconnect : n.connect = .ok rpc.conn := congrArg Prod.snd hserver
    rw [target_of_down hdown, hconnect]
    rfl

/-- Without a connection there is no call. -/
theorem target_of_checkCreateRpc_error {e : Exn}
    (h : l.checkCreateRpc (n.remote cfg .direct) = (l', .error e)) :
    l.target n = none ∧ n.connect = .error e := by
  obtain ⟨hdown, s, hserver, -⟩ := checkCreateRpc_error h
  have hconnect : n.connect = .error e := congrArg Prod.snd hserver
  refine ⟨?_, hconnect⟩
  rw [target_of_down hdown, hconnect]
  rfl

/-- A file is asked for while nothing is open: nothing is opened and the client is told so, or the client
is told of a file, or the answer of a request that opened one is lost. -/
theorem closed_of_getNextFile {filter : MediaFileRequirements}
    {answer : Except Exn MediaEncoderSettings}
    (h : l.getNextFile (n.remote cfg .direct) filter = (l', answer)) (hclosed : Closed l.server) :
    (Closed l'.server ∧ ∀ settings, answer = .ok settings → settings.fileLength = 0) ∨
      (∃ settings, answer = .ok settings ∧ 0 < settings.fileLength) ∨
      ((∃ e, n.getFate = .unanswered e) ∧
        ∃ rpc, l.rpc = some rpc ∧ Grants n.limit n.src filter rpc.conn l.server) := by
  rcases server_of_call h with ⟨hsame, e, rfl⟩ | ⟨rpc, hrpc, hcall⟩
  · rw [hsame]
    exact Or.inl ⟨hclosed, nofun⟩
  · have hasked := hclosed.getNextFile cfg rpc.conn n.limit n.src filter
    rcases Fate.deliver_cases hcall with ⟨hsame, e, -, rfl⟩ | ⟨hserver, e, hfate, rfl⟩ |
      ⟨hserver, -, hans⟩
    · rw [hsame]
      exact Or.inl ⟨hclosed, nofun⟩
    · rcases hasked with ⟨hafter, -⟩ | ⟨hgrants, -⟩
      · rw [hserver]
        exact Or.inl ⟨hafter, nofun⟩
      · exact Or.inr (Or.inr ⟨⟨e, hfate⟩, rpc, hrpc, hgrants⟩)
    · rcases hasked with ⟨hafter, hnone⟩ | ⟨-, settings, hok, hlength⟩
      · refine Or.inl ⟨hserver ▸ hafter, ?_⟩
        rintro settings rfl
        exact hnone settings (relay_ok.mp hans.symm)
      · exact Or.inr (Or.inl ⟨settings, hans.trans (relay_ok.mpr hok), hlength⟩)

/-- An answered call was executed, by the session of the object. -/
theorem answered_postFile {result : EncodingResultInfo}
    (h : l.postFile (n.remote cfg .direct) result = (l', .ok ())) :
    ∃ id cli, l.server.session id = some cli
      ∧ (cli.postFile cfg n.opens result).answer = .ok ()
      ∧ l'.server = l.server.store id (cli.postFile cfg n.opens result).client
          (cli.postFile cfg n.opens result).queued := by
  rcases server_of_call h with ⟨-, e, hans⟩ | ⟨rpc, -, hcall⟩
  · cases hans
  · rcases Fate.deliver_cases hcall with ⟨-, e, -, hans⟩ | ⟨-, e, -, hans⟩ | ⟨hserver, -, hans⟩
    · cases hans
    · cases hans
    · have hok := relay_ok.mp hans.symm
      rw [relay_fst] at hserver
      cases hcli : l.server.session rpc.conn with
      | none => simp [Daemon.Srv.postFile, Daemon.withClient, hcli] at hok
      | some cli =>
        simp only [Daemon.Srv.postFile, Daemon.withClient, hcli] at hok hserver
        exact ⟨rpc.conn, cli, hcli, hok, hserver⟩

theorem answered_writeChunk {data : Bytes} {more : Bool}
    (h : l.writeChunk (n.remote cfg .direct) data = (l', .ok more)) :
    ∃ (id : SessionId) (cli : ConnectedClient) (chunk : DataChunk),
      l.server.session id = some cli
      ∧ (cli.writeChunk cfg n.written n.flushed chunk).answer = .ok more
      ∧ l'.server = l.server.store id (cli.writeChunk cfg n.written n.flushed chunk).client
          (cli.writeChunk cfg n.written n.flushed chunk).queued := by
  rcases server_of_call h with ⟨-, e, hans⟩ | ⟨rpc, -, hcall⟩
  · cases hans
  · by_cases hsize : data.length < 2 ^ 63
    · simp only [NetworkAnswers.remote, hsize, dif_pos] at hcall
      rcases Fate.deliver_cases hcall with ⟨-, e, -, hans⟩ | ⟨-, e, -, hans⟩ | ⟨hserver, -, hans⟩
      · cases hans
      · cases hans
      · have hok := relay_ok.mp hans.symm
        rw [relay_fst] at hserver
        cases hcli : l.server.session rpc.conn with
        | none =>
          simp only [Daemon.Srv.writeChunk, Daemon.withClient, hsize, dif_pos, hcli] at hok
          cases hok
        | some cli =>
          simp only [Daemon.Srv.writeChunk, Daemon.withClient, hsize, dif_pos, hcli] at hok hserver
          exact ⟨rpc.conn, cli, ⟨data, hsize⟩, hcli, hok, hserver⟩
    · simp only [NetworkAnswers.remote, hsize, dif_neg, not_false_eq_true] at hcall
      cases congrArg Prod.snd hcall

end Line

namespace Client

variable {cfg : DaemonConfig} {ccfg : ClientSettings} {n : NetworkAnswers} {a : LocalAnswers}
  {l l' : Line Daemon} {cl cl' : Client} {token : Text}

/-! ## The two ways to lose the agreement -/

/-- A file is opened for an idle client, and the answer is lost. -/
def GrantLost (n : NetworkAnswers) (l : Line Daemon) (cl : Client) : Prop :=
  (cl.mainState = .idle ∧ cl.stopRequested = false ∧ cl.authenticated = true) ∧
    (∃ e, n.getFate = .unanswered e) ∧
    ∃ id, l.target n = some id ∧ Grants n.limit n.src cl.filter id l.server

/-- Authenticating ends with a failure of the system: no object can be created, or the call fails. -/
def SystemFails (n : NetworkAnswers) (l : Line Daemon) : Prop :=
  ∃ what, (l.target n = none ∧ n.connect = .error (.systemError what)) ∨
    ((l.target n).isSome = true ∧
      (n.authFate = .lost (.systemError what) ∨ n.authFate = .unanswered (.systemError what)))

/-- The system fails while the client authenticates for a job that has a file open. -/
def JobForgotten (n : NetworkAnswers) (l : Line Daemon) (cl : Client) : Prop :=
  (cl.mainState = .authenticateing ∧ cl.stopRequested = false ∧ cl.prevMainState ≠ .idle) ∧
    ¬ Closed l.server ∧ SystemFails n l

/-- Nothing of the two. -/
def Agrees (n : NetworkAnswers) (l : Line Daemon) (cl : Client) : Prop :=
  ¬ GrantLost n l cl ∧ ¬ JobForgotten n l cl

/-! ## What a handler does to the session -/

/-- Authenticating opens nothing, whatever becomes of the call. -/
theorem closed_of_authenticate {answer : Except Exn Unit}
    (h : l.authenticate (n.remote cfg .direct) token = (l', answer)) (hclosed : Closed l.server) :
    Closed l'.server := by
  apply keeps_authenticate _ h hclosed
  intro id d hclosed
  apply n.authFate.keeps_deliver _ hclosed
  intro hd
  exact hd.authenticate id n.junk token

theorem closed_of_throws_authenticate {e : Exn}
    (h : Throws (n.remote cfg .direct) True
      (Line.authenticate (n.remote cfg .direct) token) l l' e) (hclosed : Closed l.server) :
    Closed l'.server := by
  rcases h with hcheck | ⟨-, l₁, hcheck, hcall⟩
  · rw [Line.server_of_remote_checkCreateRpc hcheck]
    exact hclosed
  · apply closed_of_authenticate hcall
    rw [Line.server_of_remote_checkCreateRpc hcheck]
    exact hclosed

/-- An exception of the system while the client authenticates comes from the system. -/
theorem systemFails_of_throws {what : Text}
    (h : Throws (n.remote cfg .direct) True
      (Line.authenticate (n.remote cfg .direct) token) l l' (.systemError what)) :
    SystemFails n l := by
  rcases h with hcheck | ⟨-, l₁, hcheck, hcall⟩
  · exact ⟨what, Or.inl (Line.target_of_checkCreateRpc_error hcheck)⟩
  · obtain ⟨rpc, hrpc, htarget⟩ := Line.target_of_checkCreateRpc hcheck
    rw [Line.authenticate_of_some hrpc] at hcall
    obtain ⟨-, hans⟩ := Prod.mk.inj hcall
    have hfailed : (n.remote cfg .direct).authenticate rpc.conn token l₁.server
        = (_, .error (.systemError what)) := Prod.ext rfl hans
    refine ⟨what, Or.inr ⟨by rw [htarget]; rfl, ?_⟩⟩
    rcases Fate.deliver_cases hfailed with ⟨-, e, hfate, he⟩ | ⟨-, e, hfate, he⟩ |
      ⟨-, -, hok⟩
    · exact Or.inl (by rw [hfate, ← Except.error.inj he])
    · exact Or.inr (by rw [hfate, ← Except.error.inj he])
    · cases hok

/-- A request that throws has opened nothing, or its answer was lost. -/
theorem closed_of_throws_getNextFile {e : Exn} (hstate : cl.mainState = .idle)
    (hstop : cl.stopRequested = false) (hagrees : Agrees n l cl)
    (h : Throws (n.remote cfg .direct) (cl.authenticated = true)
      (Line.getNextFile (n.remote cfg .direct) cl.filter) l l' e) (hclosed : Closed l.server) :
    Closed l'.server := by
  rcases h with hcheck | ⟨hauth, l₁, hcheck, hcall⟩
  · rw [Line.server_of_remote_checkCreateRpc hcheck]
    exact hclosed
  · have hserver := Line.server_of_remote_checkCreateRpc hcheck
    obtain ⟨rpc, hrpc, htarget⟩ := Line.target_of_checkCreateRpc hcheck
    rcases Line.closed_of_getNextFile hcall (hserver ▸ hclosed) with ⟨hafter, -⟩ |
      ⟨settings, hans, -⟩ | ⟨hlost, rpc', hrpc', hgrants⟩
    · exact hafter
    · cases hans
    · obtain rfl := Option.some.inj (hrpc'.symm.trans hrpc)
      rw [hserver] at hgrants
      exact absurd ⟨⟨hstate, hstop, hauth⟩, hlost, _, htarget, hgrants⟩ hagrees.1

/-- Nothing is open for a client that is idle or goes back to it. -/
def InStep (l : Line Daemon) (cl : Client) : Prop := HeadsFor .idle cl → Closed l.server

/-- As long as none of the two happens, a handler keeps that. -/
theorem InStep.handles (h : InStep l cl) (hsingle : Single token l.server) (hagrees : Agrees n l cl)
    (hhandles : Handles (n.remote cfg .direct) ccfg a l cl l' cl' (.ok ())) : InStep l' cl' := by
  -- in these states the client is idle, waits or authenticates
  have hother : ∀ {l₂ : Line Daemon} {cl₂ : Client}, cl₂.mainState ≠ .idle → ¬ Waits cl₂.mainState →
      cl₂.mainState ≠ .authenticateing → InStep l₂ cl₂ := by
    intro l₂ cl₂ hidle hwaits hauth hheads
    rcases hheads with hstate | ⟨hstate | hstate, -⟩
    · exact absurd hstate hidle
    · exact absurd hstate hwaits
    · exact absurd hstate hauth
  -- and not on the way back to a job
  have hjob : ∀ {l₂ : Line Daemon} {cl₂ : Client}, cl₂.mainState ≠ .idle →
      cl₂.prevMainState = .sendResult → InStep l₂ cl₂ := by
    intro l₂ cl₂ hidle hprev hheads
    rcases hheads with hstate | ⟨-, hback⟩
    · exact absurd hstate hidle
    · cases hprev.symm.trans hback
  cases hhandles with
  | refuse | waits | convertLost => exact h
  | idleFailed hstate hstop hthrow | idleStays hstate hstop hthrow =>
    intro _
    exact closed_of_throws_getNextFile hstate hstop hagrees hthrow (h (Or.inl hstate))
  | idleUnknown hstate hstop hauth hcheck =>
    intro _
    rw [Line.server_of_remote_checkCreateRpc hcheck]
    exact h (Or.inl hstate)
  | idleNone hstate hstop hauth hcheck hget hlength =>
    intro _
    have hserver := Line.server_of_remote_checkCreateRpc hcheck
    obtain ⟨rpc, hrpc, htarget⟩ := Line.target_of_checkCreateRpc hcheck
    rcases Line.closed_of_getNextFile hget (hserver ▸ h (Or.inl hstate)) with ⟨hafter, -⟩ |
      ⟨settings, hans, hpos⟩ | ⟨hlost, rpc', hrpc', hgrants⟩
    · exact hafter
    · obtain rfl := Except.ok.inj hans
      omega
    · obtain rfl := Option.some.inj (hrpc'.symm.trans hrpc)
      rw [hserver] at hgrants
      exact absurd ⟨⟨hstate, hstop, hauth⟩, hlost, _, htarget, hgrants⟩ hagrees.1
  | idleFile | receiveDone => exact hother nofun id nofun
  | authRetries hstate hstop hthrow he =>
    rintro (hidle | ⟨-, hprev⟩)
    · cases hstate.symm.trans hidle
    · exact closed_of_throws_authenticate hthrow (h (Or.inr ⟨Or.inr hstate, hprev⟩))
  | authForgets hstate hstop hthrow =>
    intro _
    apply closed_of_throws_authenticate hthrow
    by_contra hopen
    by_cases hprev : cl.prevMainState = .idle
    · exact hopen (h (Or.inr ⟨Or.inr hstate, hprev⟩))
    · exact hagrees.2 ⟨⟨hstate, hstop, hprev⟩, hopen, systemFails_of_throws hthrow⟩
  | authDone hstate hstop hcheck hcall =>
    intro hheads
    have hprev : cl.prevMainState = .idle := by
      rcases hheads with hprev | ⟨-, hprev⟩
      · exact hprev
      · exact hprev
    apply closed_of_authenticate hcall
    rw [Line.server_of_remote_checkCreateRpc hcheck]
    exact h (Or.inr ⟨Or.inr hstate, hprev⟩)
  | returns hstate hstop =>
    rintro (hprev | ⟨-, hprev⟩)
    · exact h (Or.inr ⟨Or.inl hstate, hprev⟩)
    · exact h (Or.inr ⟨Or.inl hstate, hprev⟩)
  | receiveMore hstate | receiveThrew hstate | receiveShort hstate =>
    exact hother (by simp [hstate]) (by simp [hstate, Waits]) (by simp [hstate])
  | convert hstate hproc =>
    rcases (doConvert_converts ccfg hproc a.encoder).state with ⟨hsend, -⟩ | ⟨hstays, -⟩
    · exact hother (by simp [hsend]) (by simp [hsend, Waits]) (by simp [hsend])
    · exact hother (by simp [hstays, hstate]) (by simp [hstays, hstate, Waits])
        (by simp [hstays, hstate])
  | sendFailed | sendUnknown => exact hjob nofun rfl
  | sendUpload => exact hother nofun id nofun
  | sendDone hstate hauth hcheck hpost hup =>
    intro _
    obtain ⟨id, cli, hcli, hok, hserver⟩ := Line.answered_postFile hpost
    obtain ⟨c, hc⟩ := ConnectedClient.postFile_failure hup hok
    rw [hserver, hc]
    rw [← Line.server_of_remote_checkCreateRpc hcheck] at hsingle
    exact hsingle.closed_store hcli (ConnectedClient.closed_prepareNewSession c cfg) _
  | transmitMore hstate | transmitRestart hstate | transmitLacks hstate =>
    exact hother (by simp [hstate]) (by simp [hstate, Waits]) (by simp [hstate])
  | transmitDone hstate hwrite heof =>
    intro _
    obtain ⟨id, cli, chunk, hcli, hok, hserver⟩ := Line.answered_writeChunk hwrite
    rw [hserver]
    exact hsingle.closed_store hcli (ConnectedClient.closed_writeChunk hok) _

end Client

/-- The session is free for the next file: nothing is open, and asking for a file is not refused because
something is. -/
def Daemon.Free (cfg : DaemonConfig) (d : Daemon) : Prop :=
  ∀ id cli, d.session id = some cli → cli.Closed ∧ ∀ limit src filter file name what,
    (Daemon.Srv.getNextFile cfg id limit src filter d).2
      ≠ .error (ConnectedClient.alreadyOpen file name what)

theorem Daemon.Closed.free {d : Daemon} (h : Closed d) (cfg : DaemonConfig) : d.Free cfg := by
  intro id cli hcli
  have hclosed := h (id, cli) (d.connections.find?_eq_some.mp hcli)
  refine ⟨hclosed, ?_⟩
  intro limit src filter file name what
  simp only [Daemon.Srv.getNextFile, Daemon.withClient, hcli]
  exact ConnectedClient.not_alreadyOpen hclosed d.stopRequested d.db limit src filter file name what

namespace Network

open Client (HeadsFor InStep)

/-- The poll does not lose the agreement. -/
def Agrees (p : Process Daemon) : NetworkEvent → Prop
  | .poll n _ _ => p.ending = none → Client.Agrees n p.line p.client
  | .stop _ | .background .. => True

/-- What is true of a client that runs, and its daemon. -/
structure Alone (token : Nat) (l : Line Daemon) (cl : Client) : Prop where
  identity : cl.token = token
  single : Single (toString token).toList l.server
  inStep : InStep l cl

/-- As long as no file is opened for a request whose answer is lost, and no job is forgotten over a failure
of the system, the session is free whenever the client is idle or goes back to it. -/
theorem free_run (cfg : DaemonConfig) (ccfg : ClientSettings) (token : Nat) (db : Store)
    {es : List NetworkEvent}
    (hagrees : (machine cfg ccfg).Along Agrees (start token db) es) :
    let p := (machine cfg ccfg).run (start token db) es
    p.ending = none → HeadsFor .idle p.client → p.line.server.Free cfg := by
  intro p hrun hheads
  have hp : p = (Process.machine ccfg).run (start token db) (es.map (NetworkEvent.toClient cfg)) :=
    Machine.run_comap ..
  rw [hp] at hrun hheads ⊢
  have halone := Process.invariant_running ccfg (Alone token) ?_ ?_ ?_ ?_
    (Machine.along_comap _ _ hagrees) hrun
  · exact (halone.inStep hheads).free cfg
  · rintro r a request q l cl ⟨e, he, hguard⟩ hnone ⟨htoken, hsingle, hstep⟩ hhandles -
    cases e with
    | poll n a' request' =>
      obtain ⟨rfl, rfl, rfl⟩ := ClientEvent.poll.inj he
      have hkeeps := Client.serverKeeps_single cfg n (toString q.client.token).toList
      rw [← htoken] at hsingle
      refine ⟨hhandles.token.trans htoken, htoken ▸ hhandles.server hkeeps hsingle, ?_⟩
      exact hstep.handles hsingle (hguard hnone) hhandles
    | stop forced => cases he
    | background e hb => cases he
  · rintro q e forced l cl - - ⟨htoken, hsingle, hstep⟩
    exact ⟨htoken, hsingle, hstep⟩
  · rintro q f l cl ⟨e, he, -⟩ ⟨htoken, hsingle, hstep⟩
    cases e with
    | poll n a request => cases he
    | stop forced => cases he
    | background e hb =>
      obtain rfl := ClientEvent.serve.inj he
      refine ⟨htoken, ?_, ?_⟩
      · apply (Daemon.step_does cfg l.server e).single hsingle
        rintro id junk token' rfl
        exact hb.elim
      · intro hheads r hr
        apply hstep hheads r
        rw [← Daemon.connections_background cfg hb]
        exact hr
  · rintro -
    exact ⟨rfl, Daemon.single_start _ db, fun _ => Daemon.closed_start db⟩

/-- A poll in which the answer to a request for a file is lost. -/
def grantLost : NetworkEvent :=
  .poll { NetworkAnswers.working 1 with getFate := .unanswered (.rpcTimeout []) } (.working [9]) none

theorem not_systemFails {n : NetworkAnswers} {l : Line Daemon} (hconnect : n.connect = .ok 1)
    (hauth : n.authFate = .answered) : ¬ Client.SystemFails n l := by
  rintro ⟨what, ⟨-, hnone⟩ | ⟨-, hlost | hlost⟩⟩
  · cases hconnect.symm.trans hnone
  · cases hauth.symm.trans hlost
  · cases hauth.symm.trans hlost

/-- The answer is lost, but there was no file. -/
theorem free_nothing_granted :
    let p := (machine gCfg .gCfg).run (start 3 .empty) [smooth, smooth, grantLost, smooth]
    p.client.mainState = .idle ∧ (p.line.server.session 1).isSome = true
      ∧ p.line.server.Free gCfg := by
  intro p
  have hsmooth : ∀ q : Process Daemon, Agrees q smooth :=
    fun q _ => ⟨fun h => absurd h.2.1 nofun, fun h => absurd h.2.2 (not_systemFails rfl rfl)⟩
  have hagrees : (machine gCfg .gCfg).Along Agrees (start 3 .empty)
      [smooth, smooth, grantLost, smooth] := by
    refine ⟨hsmooth _, hsmooth _, fun _ => ⟨?_, ?_⟩, hsmooth _, trivial⟩
    · rintro ⟨-, -, id, -, -, -, db', srcId, file, hfound, -⟩
      cases congrArg Prod.snd hfound
    · exact fun h => absurd h.2.2 (not_systemFails rfl rfl)
  have hstate : p.client.mainState = .idle := by decide +kernel
  refine ⟨hstate, by decide +kernel, ?_⟩
  exact free_run gCfg .gCfg 3 .empty hagrees (by decide +kernel) (Or.inl hstate)

/-- A file is opened for an idle client, which does not learn of it. -/
theorem already_open :
    let p := (machine gCfg .gCfg).run (start 3 .empty)
      [.background (Daemon.discovers "a.mov".toList []) trivial, smooth, smooth, grantLost]
    p.ending = none ∧ HeadsFor .idle p.client
      ∧ (Daemon.Srv.getNextFile gCfg 1 .first ⟨fun _ => none, fun _ => none⟩ p.client.filter
          p.line.server).2 = .error (ConnectedClient.alreadyOpen 1 "a.mov".toList "reading")
      ∧ ¬ p.line.server.Free gCfg := by
  intro p
  have hrefused : (Daemon.Srv.getNextFile gCfg 1 .first ⟨fun _ => none, fun _ => none⟩ p.client.filter
      p.line.server).2 = .error (ConnectedClient.alreadyOpen 1 "a.mov".toList "reading") := by
    decide +kernel
  obtain ⟨cli, hcli⟩ : ∃ cli, p.line.server.session 1 = some cli :=
    Option.isSome_iff_exists.mp (by decide +kernel)
  refine ⟨by decide +kernel, Or.inr ⟨?_, by decide +kernel⟩, hrefused, ?_⟩
  · left
    have hstate : p.client.mainState = .waitForReconnect := by decide +kernel
    rw [hstate]
    trivial
  · intro hfree
    exact (hfree 1 cli hcli).2 _ _ _ _ _ _ hrefused

end Network

end MediaArchiver
