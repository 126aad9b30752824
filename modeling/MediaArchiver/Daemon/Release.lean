/-
# MediaArchiver.Daemon.Release -- after abort a session holds nothing

`abort` looks for an open stream. If there is one, it resets the row of the session's id and clears the
session; if there is none, it returns at once. So it releases what a session holds as long as a session
that has an id also has a stream open (`InHand`).

Every call keeps this but one. `postFile` closes the source before it opens the temp file, and if that
does not open (`Unopened`) the session is left with its id and nothing open. The other way into such a
state is a new session whose id happens not to be zero. A run without these two steps, and no other, has
in all its states an `abort` that releases (`abort_releases_iff`).
-/
import MediaArchiver.Store.Retries
import MediaArchiver.Daemon.Custody

namespace MediaArchiver

open Lib (Machine Table WriteAnswer)
open ConnectedClient (SameFile Idle HandsOver Readable)
open Custody (busy busy_eq_false)

/-! ## What a call leaves in hand -/

namespace ConnectedClient

/-- The session has no file, or a stream open for it. -/
def InHand (cli : ConnectedClient) : Prop := cli.originalFileId = 0 ∨ busy cli = true

instance (cli : ConnectedClient) : Decidable cli.InHand := inferInstanceAs (Decidable (_ ∨ _))

/-- A result with an upload comes as far as the temp file, and that does not open. -/
def Unopened (cli : ConnectedClient) (opens : Bool) (result : EncodingResultInfo) : Prop :=
  result.Uploads ∧ opens = false ∧ cli.originalFileId ≠ 0 ∧ cli.outFile.isOpen = false
    ∧ (cli.inFile.isOpen = true → sizeT cli.inFile.tellg.2 = cli.encSettings.fileLength)

instance (cli : ConnectedClient) (opens : Bool) (result : EncodingResultInfo) :
    Decidable (cli.Unopened opens result) :=
  inferInstanceAs (Decidable (_ ∧ _ ∧ _ ∧ _ ∧ (_ → _)))

variable {cli : ConnectedClient} {cfg : DaemonConfig} {d : Daemon} {opens : Bool}
  {result : EncodingResultInfo}

theorem InHand.of_same (h : cli.InHand) {cli' : ConnectedClient} (same : SameFile cli cli')
    (hbusy : busy cli' = busy cli) : cli'.InHand :=
  h.imp same.id.trans hbusy.trans

theorem busy_reset (cli : ConnectedClient) (flushed : Nat) : busy (cli.reset flushed) = busy cli := by
  unfold reset
  split
  · simp [busy]
  · split
    · simp [busy]
    · rfl

theorem busy_readChunk (cli : ConnectedClient) (cfg : DaemonConfig) (avail : Nat) :
    busy (cli.readChunk cfg avail).1 = busy cli := by
  unfold readChunk
  split
  · dsimp only
    split <;> simp [busy]
  · rfl

/-- A result leaves the session in hand unless the temp file does not open. -/
theorem inHand_acceptResult (h : cli.originalFileId ≠ 0 → cli.outFile.isOpen = false → result.Uploads →
    opens = true) : (cli.acceptResult cfg opens result).client.InHand := by
  unfold acceptResult
  by_cases hout : cli.outFile.isOpen = true
  · rw [if_pos hout]
    exact Or.inr (by rw [busy, hout, Bool.or_true])
  rw [if_neg hout]
  by_cases hup : result.Uploads
  · rw [if_pos hup]
    cases hopens : opens with
    | true => exact Or.inr (Bool.or_true _)
    | false =>
      by_cases hid : cli.originalFileId = 0
      · exact Or.inl hid
      · have hopen := h hid (Bool.not_eq_true _ ▸ hout) hup
        rw [hopens] at hopen
        cases hopen
  · rw [if_neg hup]
    exact Or.inl rfl

theorem InHand.postFile (h : cli.InHand) (hopens : ¬ cli.Unopened opens result) :
    (cli.postFile cfg opens result).client.InHand := by
  have hup : cli.originalFileId ≠ 0 → cli.outFile.isOpen = false →
      (cli.inFile.isOpen = true → sizeT cli.inFile.tellg.2 = cli.encSettings.fileLength) →
      result.Uploads → opens = true := by
    intro hid hout hread hup
    by_contra hnot
    exact hopens ⟨hup, Bool.not_eq_true _ ▸ hnot, hid, hout, hread⟩
  unfold ConnectedClient.postFile
  by_cases hin : cli.inFile.isOpen = true
  · rw [if_pos hin]
    dsimp only
    split
    · refine h.of_same ⟨rfl, rfl, rfl⟩ ?_
      simp only [busy, Lib.InStream.isOpen_tellg]
    · rename_i hread
      exact inHand_acceptResult fun hid hout => hup hid hout fun _ => not_not.mp hread
  · rw [if_neg hin]
    exact inHand_acceptResult fun hid hout => hup hid hout fun hopen => absurd hopen hin

/-- If it does not open, the session has an id and nothing else. -/
theorem not_inHand_postFile (h : cli.Unopened opens result) :
    ¬ (cli.postFile cfg opens result).client.InHand := by
  obtain ⟨hup, rfl, hid, hout, hread⟩ := h
  have haccept : ∀ c : ConnectedClient, c.originalFileId = cli.originalFileId →
      c.inFile.isOpen = false → c.outFile.isOpen = false →
      ¬ (c.acceptResult cfg false result).client.InHand := by
    intro c hcid hcin hcout
    simp only [acceptResult, hcout, hup, if_true, if_false, Bool.false_eq_true]
    rintro (hzero | hopen)
    · exact hid (hcid.symm.trans hzero)
    · rw [busy, hcin] at hopen
      cases hopen
  unfold ConnectedClient.postFile
  by_cases hin : cli.inFile.isOpen = true
  · rw [if_pos hin]
    dsimp only
    rw [if_neg (not_not.mpr (hread hin))]
    exact haccept _ rfl (Lib.InStream.isOpen_close _) hout
  · rw [if_neg hin]
    exact haccept cli rfl (Bool.not_eq_true _ ▸ hin) hout

theorem InHand.writeChunk (h : cli.InHand) (written : WriteAnswer UInt8) (flushed : Nat)
    (data : DataChunk) : (cli.writeChunk cfg written flushed data).client.InHand := by
  unfold ConnectedClient.writeChunk
  split
  · exact h
  · dsimp only
    split
    · refine h.of_same ⟨rfl, rfl, rfl⟩ ?_
      simp only [busy, Lib.OutStream.isOpen_write]
    · exact Or.inl rfl

/-- An idle session that asks for a file has none, or has the one that was reserved open. -/
theorem getNextFile_idle (hbusy : busy cli = false) (cfg : DaemonConfig) (stopRequested : Bool)
    (db : Store) (limit : LimitOne) (src : SourceAnswers) (filter : MediaFileRequirements) :
    (cli.getNextFile cfg stopRequested db limit src filter).2.1.originalFileId = 0 ∨
      busy (cli.getNextFile cfg stopRequested db limit src filter).2.1 = true ∧
        ∃ file, db.Reserves (cli.getNextFile cfg stopRequested db limit src filter).2.1.originalFileId
          file (cli.getNextFile cfg stopRequested db limit src filter).1 := by
  obtain ⟨hin, hout⟩ := busy_eq_false.mp hbusy
  rcases getNextFile_cases hin hout cfg stopRequested db limit src filter with
    ⟨-, heq⟩ | ⟨db', srcId, file, -, hdb, ⟨-, e, -, heq⟩ | ⟨-, c, heq, hserves, -, -⟩⟩
  · rw [heq]
    exact Or.inl rfl
  · rw [heq]
    exact Or.inl rfl
  · rw [heq, hserves.id]
    exact Or.inr ⟨by rw [busy, hserves.isOpen, Bool.true_or], file, Store.reserves_of_getNextFile hdb⟩

end ConnectedClient

/-! ## What abort does -/

namespace Daemon

variable {cfg : DaemonConfig} {d d' : Daemon} {e : DaemonEvent} {id : SessionId}
  {cli : ConnectedClient}

/-- The session holds nothing any more, and the file it held can be fetched again, unless an entry for
it waits for the mover. -/
structure Released (d : Daemon) (id : SessionId) (cli : ConnectedClient) (d' : Daemon) : Prop where
  idle : ∃ cli', d'.session id = some cli' ∧ cli'.inFile.isOpen = false
    ∧ cli'.outFile.isOpen = false ∧ cli'.originalFileId = 0
  notStarted : cli.originalFileId ≠ 0 →
    (∀ ftm ∈ d.entries, ftm.result.originalFileId ≠ cli.originalFileId) →
    d'.db.statuses cli.originalFileId ≠ []
      ∧ ∀ status ∈ d'.db.statuses cli.originalFileId, status = 0

/-- An `abort` that returns releases what its session held. -/
def AbortReleases (d : Daemon) : Prop :=
  ∀ id cli sql, d.session id = some cli → (Bound.abort id sql d).2 = .answered () →
    Released d id cli (Bound.abort id sql d).1

/-- A session has no file, or a stream open for it and a row in the queue. -/
def Kept (db : Store) (cli : ConnectedClient) : Prop :=
  cli.originalFileId = 0 ∨ busy cli = true ∧ db.statuses cli.originalFileId ≠ []

theorem Kept.inHand {db : Store} (h : Kept db cli) : cli.InHand := h.imp id And.left

/-- The call that returns is the one that was made. -/
theorem bound_abort_answered (hcli : d.session id = some cli) {sql : Bool}
    (h : (Bound.abort id sql d).2 = .answered ()) : (Bound.abort id sql d).1 = d.abort id cli := by
  unfold Bound.abort at h ⊢
  split
  · rename_i hfails
    rw [if_pos hfails] at h
    cases h
  · simp only [Srv.abort, withClient, hcli]

theorem abort_of_idle (d : Daemon) (id : SessionId) (hidle : busy cli = false) :
    (d.abort id cli).session id = some cli ∧ (d.abort id cli).db = d.db := by
  obtain ⟨hin, hout⟩ := busy_eq_false.mp hidle
  have habort : cli.abort = (cli, none) := by
    rw [ConnectedClient.abort, hin, hout]
    rfl
  simp only [Daemon.abort, habort]
  exact ⟨session_store d id cli none, rfl⟩

theorem abort_of_busy (d : Daemon) (id : SessionId) (hbusy : busy cli = true) :
    ∃ cli', Idle cli cli' ∧ (d.abort id cli).session id = some cli'
      ∧ (d.abort id cli).db = d.db.reset cli.originalFileId := by
  have habort : cli.abort.2 = some cli.originalFileId ∧ Idle cli cli.abort.1 := by
    rcases cli.abort_spec with ⟨-, hin, hout⟩ | h
    · rw [busy_eq_false.mpr ⟨hin, hout⟩] at hbusy
      cases hbusy
    · exact h
  simp only [Daemon.abort, habort.1]
  exact ⟨cli.abort.1, habort.2, session_store d id cli.abort.1 none, trivial⟩

/-- What is kept is released. -/
theorem Kept.released (h : Kept d.db cli) (id : SessionId) : Released d id cli (d.abort id cli) := by
  rcases Bool.eq_false_or_eq_true (busy cli) with hbusy | hidle
  · obtain ⟨cli', hclosed, hsession, hdb⟩ := abort_of_busy d id hbusy
    refine ⟨⟨cli', hsession, hclosed.inFile, hclosed.outFile, hclosed.id⟩, fun hid _ => ?_⟩
    rw [hdb, Store.statuses_reset, if_pos rfl]
    refine ⟨?_, fun status hst => ?_⟩
    · simpa using (h.resolve_left hid).2
    · obtain ⟨_, _, rfl⟩ := List.mem_map.mp hst
      rfl
  · obtain ⟨hin, hout⟩ := busy_eq_false.mp hidle
    have hzero : cli.originalFileId = 0 := by
      rcases h with hzero | ⟨hbusy, -⟩
      · exact hzero
      · rw [hidle] at hbusy
        cases hbusy
    exact ⟨⟨cli, (abort_of_idle d id hidle).1, hin, hout, hzero⟩, fun hid => absurd hzero hid⟩

/-- A session that `abort` releases had its file in hand. -/
theorem AbortReleases.inHand (h : AbortReleases d) (hcli : d.session id = some cli) : cli.InHand := by
  rcases Bool.eq_false_or_eq_true (busy cli) with hbusy | hidle
  · exact Or.inr hbusy
  · have hanswered : (Bound.abort id true d).2 = .answered () := by
      simp only [Bound.abort, Bool.not_true, Bool.and_false, Bool.false_eq_true, if_false, Srv.abort,
        withClient, hcli, Outcome.bare]
    obtain ⟨cli', hsession, -, -, hzero⟩ := (h id cli true hcli hanswered).idle
    rw [bound_abort_answered hcli hanswered, (abort_of_idle d id hidle).1] at hsession
    obtain rfl := Option.some.inj hsession
    exact Or.inl hzero

/-! ## Runs -/

/-- A session that comes into being has no id, and no temp file fails to open. -/
def Opens (d : Daemon) : DaemonEvent → Prop
  | .authenticate _ junk token =>
      (∀ r ∈ d.connections.rows, r.2.token ≠ token) → junk.originalFileId = 0
  | .postFile id opens result => ∀ cli ∈ d.session id, ¬ cli.Unopened opens result
  | _ => True

instance (d : Daemon) : DecidablePred (Opens d)
  | .authenticate .. => inferInstanceAs (Decidable ((∀ r ∈ _, _) → _))
  | .postFile .. => inferInstanceAs (Decidable (∀ cli ∈ _, ¬ ConnectedClient.Unopened _ _ _))
  | .reset .. | .abort .. | .getNextFile .. | .readChunk .. | .writeChunk .. | .fileSystemChange ..
  | .moverTake | .moverFinish _ | .stop | .restart => inferInstanceAs (Decidable True)

/-- What an event does to the database is one of its calls, or nothing. -/
theorem Does.storeCall (h : Does cfg d e d') :
    d'.db = d.db ∨ ∃ call : StoreCall, d'.db = Store.machine.step d.db call := by
  cases h with
  | nothing | authenticate | keep | forget | postFile | writeChunk | drop | take | stop | restart =>
    exact Or.inl rfl
  | @reserve id limit src filter cli cli' db' srcId file _ _ _ hdb =>
    exact Or.inr ⟨.getNextFile limit filter, (congrArg Prod.fst hdb).symm⟩
  | @strand id limit src filter cli cli' db' srcId file _ _ _ _ hdb =>
    exact Or.inr ⟨.getNextFile limit filter, (congrArg Prod.fst hdb).symm⟩
  | @abort id cli cli' => exact Or.inr ⟨.reset cli.originalFileId, rfl⟩
  | @addFile getFileSize e dst call => exact Or.inr ⟨.addFile call.src call.dst call.queue, rfl⟩
  | @finish outcome ftm =>
    obtain ⟨file, hfile, -⟩ := ftm.record_spec outcome
    refine Or.inr ⟨.addEncodedFile file, ?_⟩
    simp only [Store.finishMove, hfile]
    rfl

/-- A file that is queued stays queued. -/
theorem Does.queued (h : Does cfg d e d') {id : Nat} (hid : d.db.statuses id ≠ []) :
    d'.db.statuses id ≠ [] := by
  rcases h.storeCall with hdb | ⟨call, hdb⟩ <;> rw [hdb]
  · exact hid
  · exact Store.statuses_step_ne_nil call hid

theorem Kept.of_queued {db db' : Store} (h : Kept db cli)
    (hqueued : ∀ id, db.statuses id ≠ [] → db'.statuses id ≠ []) : Kept db' cli :=
  h.imp_right fun ⟨hbusy, hid⟩ => ⟨hbusy, hqueued _ hid⟩

/-- A session in hand that has the id it had, or none. -/
theorem Kept.of_id {db db' : Store} (h : Kept db cli)
    (hqueued : ∀ id, db.statuses id ≠ [] → db'.statuses id ≠ []) {cli' : ConnectedClient}
    (hhand : cli'.InHand)
    (hid : cli'.originalFileId = 0 ∨ cli'.originalFileId = cli.originalFileId) : Kept db' cli' := by
  rcases hid with hzero | hsame
  · exact Or.inl hzero
  · by_cases hzero : cli.originalFileId = 0
    · exact Or.inl (hsame.trans hzero)
    · have hne : cli'.originalFileId ≠ 0 := fun h => hzero (hsame.symm.trans h)
      refine Or.inr ⟨hhand.resolve_left hne, ?_⟩
      rw [hsame]
      exact hqueued _ (h.resolve_left hzero).2

/-- A call leaves its session with what it had, or with nothing, or with a file that was reserved. -/
theorem Kept.leaves (h : Kept d.db cli) (hcli : d.session id = some cli) (hid : e.caller = some id)
    (hopens : Opens d e) :
    Kept ((machine cfg).step d e).db (cli.leaves cfg d e).1 := by
  have hqueued : ∀ id, d.db.statuses id ≠ [] → ((machine cfg).step d e).db.statuses id ≠ [] :=
    fun id => (step_does cfg d e).queued
  have hhand := h.inHand
  cases e with
  | reset id' flushed =>
    have hsame := cli.reset_spec flushed
    exact h.of_id hqueued (hhand.of_same hsame (cli.busy_reset flushed)) (Or.inr hsame.id)
  | readChunk id' avail =>
    have hsame := cli.readChunk_spec cfg avail
    exact h.of_id hqueued (hhand.of_same hsame (cli.busy_readChunk cfg avail)) (Or.inr hsame.id)
  | abort id' =>
    rcases cli.abort_spec with ⟨heq, -⟩ | ⟨-, hidle⟩
    · have hsame : (cli.leaves cfg d (.abort id')).1 = cli := congrArg Prod.fst heq
      rw [hsame]
      exact h.of_queued hqueued
    · exact Or.inl hidle.id
  | getNextFile id' limit src filter =>
    obtain rfl := Option.some.inj hid
    rcases Bool.eq_false_or_eq_true (busy cli) with hbusy | hidle
    · obtain ⟨e, heq⟩ := cli.getNextFile_of_busy cfg d.stopRequested d.db limit src filter
        (Bool.or_eq_true_iff.mp hbusy)
      have hsame : (cli.leaves cfg d (.getNextFile id' limit src filter)).1 = cli :=
        congrArg (·.2.1) heq
      rw [hsame]
      exact h.of_queued hqueued
    · rcases ConnectedClient.getNextFile_idle hidle cfg d.stopRequested d.db limit src filter with
        hzero | ⟨hbusy, file, hres⟩
      · exact Or.inl hzero
      · refine Or.inr ⟨hbusy, ?_⟩
        rw [← Srv.step_getNextFile]
        simp only [Srv.getNextFile, withClient, hcli]
        exact hres.queued
  | postFile id' opens result =>
    obtain rfl := Option.some.inj hid
    refine h.of_id hqueued (hhand.postFile (hopens cli hcli)) ?_
    rcases cli.postFile_spec cfg opens result with ⟨-, hsame⟩ | ⟨-, move, -, hands⟩
    · exact Or.inr hsame.id
    · exact Or.inl hands.id
  | writeChunk id' written flushed data =>
    refine h.of_id hqueued (hhand.writeChunk written flushed data) ?_
    rcases cli.writeChunk_spec cfg written flushed data with ⟨-, hsame⟩ | ⟨-, move, -, hands⟩
    · exact Or.inr hsame.id
    · exact Or.inl hands.id
  | authenticate | fileSystemChange | moverTake | moverFinish | stop | restart => cases hid

/-- All sessions are kept. -/
def KeepsAll (d : Daemon) : Prop := ∀ r ∈ d.connections.rows, Kept d.db r.2

theorem KeepsAll.abortReleases (h : KeepsAll d) : AbortReleases d := by
  intro id cli sql hcli hanswered
  rw [bound_abort_answered hcli hanswered]
  exact (h (id, cli) (d.connections.find?_eq_some.mp hcli)).released id

/-- What is not a call of a client leaves the sessions alone. -/
theorem KeepsAll.background (h : KeepsAll d) (he : e.Background) : KeepsAll ((machine cfg).step d e) := by
  intro r hr
  rw [connections_background cfg he] at hr
  exact (h r hr).of_queued fun id => (step_does cfg d e).queued

/-- A step that opens what it has to keeps all sessions. -/
theorem KeepsAll.step (h : KeepsAll d) (hopens : Opens d e) : KeepsAll ((machine cfg).step d e) := by
  have hqueued : ∀ id, d.db.statuses id ≠ [] → ((machine cfg).step d e).db.statuses id ≠ [] :=
    fun id => (step_does cfg d e).queued
  cases hcaller : e.caller with
  | some id =>
    exact forall_sessions_of_caller hcaller (fun r hr => (h r hr).of_queued hqueued) fun cli hcli =>
      (h (id, cli) (d.connections.find?_eq_some.mp hcli)).leaves hcli hcaller hopens
  | none =>
    cases e with
    | authenticate id junk token =>
      exact Connections.forall_authenticate h id junk token fun hnone => Or.inl (hopens hnone)
    | fileSystemChange | moverTake | moverFinish | stop =>
      exact h.background trivial
    | restart => exact fun r hr => absurd hr List.not_mem_nil
    | _ => cases hcaller

/-- No other step leads to a daemon whose `abort` releases. -/
theorem opens_of_abortReleases (h : AbortReleases ((machine cfg).step d e)) : Opens d e := by
  cases e with
  | authenticate id junk token =>
    intro hnone
    have hbound : d.connections.bound junk token
        = { ConnectedClient.fresh junk with token := token } := by
      rcases d.connections.bound_cases junk token with ⟨s, hs, htoken, -⟩ | ⟨-, hbound⟩
      · exact absurd htoken (hnone s hs)
      · exact hbound
    have hsession := Connections.find?_authenticate d.connections id junk token
    rw [hbound] at hsession
    rcases h.inHand hsession with hzero | hbusy
    · exact hzero
    · cases hbusy
  | postFile id opens result =>
    intro cli hcli hunopened
    have hsession : ((machine cfg).step d (.postFile id opens result)).session id
        = some (cli.postFile cfg opens result).client := by
      show (step cfg d (.postFile id opens result)).session id = _
      rw [Option.mem_def] at hcli
      simp only [step, hcli]
      exact session_store d id _ _
    exact ConnectedClient.not_inHand_postFile hunopened (h.inHand hsession)
  | _ => trivial

/-- In all states of a run `abort` releases what the sessions hold, exactly if no new session starts with
an id and no temp file fails to open for a session that has one. -/
theorem abort_releases_iff (cfg : DaemonConfig) (es : List DaemonEvent) :
    (∀ past, past <+: es → AbortReleases ((machine cfg).run (start .empty) past))
      ↔ (machine cfg).Along Opens (start .empty) es :=
  (machine cfg).always_iff (I := KeepsAll) (fun _ h => h.abortReleases)
    (fun _ _ h hopens => h.step hopens) (fun _ _ _ h => opens_of_abortReleases h)
    (fun _ hr => absurd hr List.not_mem_nil) es

/-- The temp file for the result of a download does not open. `abort` answers, and the session keeps its
file. -/
theorem abort_keeps :
    let d := (machine gCfg).run (start .empty)
      [discovers "a.mov".toList [], .authenticate 1 ⟨0, .zero⟩ "t".toList, fetches 1,
       .readChunk 1 1, .postFile 1 false ⟨5, 1, []⟩]
    let aborted := Bound.abort 1 true d
    aborted.2 = .answered () ∧ aborted.1.db.statuses 1 = [1] ∧
      (aborted.1.session 1).map ConnectedClient.originalFileId = some 1 ∧ ¬ AbortReleases d := by
  intro d aborted
  refine ⟨rfl, rfl, rfl, fun h => ?_⟩
  obtain ⟨cli, hcli, hanswer⟩ : ∃ cli, d.session 1 = some cli ∧ ¬ cli.InHand := ⟨_, rfl, by decide⟩
  exact hanswer (h.inHand hcli)

end Daemon

end MediaArchiver
