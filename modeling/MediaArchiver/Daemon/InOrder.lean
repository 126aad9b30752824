/-
# MediaArchiver.Daemon.InOrder -- what the sessions of a client keep as long as files work

A call of a known session leaves another session and perhaps an entry for the mover (`leaves`,
`step_of_caller`). If the files do not fail, a session stays `InOrder`: it has at most one file open, and
an output file that is open is good and short of the announced length.

So an upload is only ever finished by a chunk that has bytes and is not refused. Whatever else a client
calls, at any time and in any order, queues no upload (`InOrder.step`).
-/
import MediaArchiver.Daemon.OneClient
import MediaArchiver.Daemon.Upload

namespace MediaArchiver

open Lib (OutStream)
open Upload (SoundWrite)

/-! ## The calls of a client -/

namespace DaemonEvent

/-- The session that makes the call. -/
def caller : DaemonEvent → Option SessionId
  | .reset id _ | .abort id | .getNextFile id .. | .readChunk id _ | .postFile id ..
  | .writeChunk id .. => some id
  | _ => none

/-- The chunk that a call brings. -/
def chunk : DaemonEvent → Option DataChunk
  | .writeChunk _ _ _ data => some data
  | _ => none

/-- A client with the token may have made the call. -/
def Made (token : Text) : DaemonEvent → Prop
  | .authenticate _ _ token' => token' = token
  | .fileSystemChange .. | .moverTake | .moverFinish _ | .stop | .restart => False
  | _ => True

/-- The files that the call works on do not fail. -/
def FilesWork (d : Daemon) : DaemonEvent → Prop
  | .writeChunk id written flushed data =>
      ∀ cli ∈ d.session id, SoundWrite cli (.writeChunk written flushed data)
  | .reset id flushed =>
      ∀ cli ∈ d.session id, cli.outFile.isOpen = true → cli.outFile.Flushes flushed
  | _ => True

/-- The session takes nothing of the chunk. -/
def Idles (d : Daemon) : DaemonEvent → Prop
  | .writeChunk id _ _ data => data.bytes = [] ∨ ∀ cli ∈ d.session id, cli.refuses data = true
  | _ => True

instance (d : Daemon) : DecidablePred (FilesWork d)
  | .writeChunk id .. => inferInstanceAs (Decidable (∀ cli ∈ d.session id, _))
  | .reset id _ => inferInstanceAs (Decidable (∀ cli ∈ d.session id, _ = _ → _))
  | .authenticate .. | .abort _ | .getNextFile .. | .readChunk .. | .postFile ..
  | .fileSystemChange .. | .moverTake | .moverFinish _ | .stop | .restart => isTrue trivial

instance (d : Daemon) : DecidablePred (Idles d)
  | .writeChunk id .. => inferInstanceAs (Decidable (_ = _ ∨ ∀ cli ∈ d.session id, _))
  | .authenticate .. | .reset .. | .abort _ | .getNextFile .. | .readChunk .. | .postFile ..
  | .fileSystemChange .. | .moverTake | .moverFinish _ | .stop | .restart => isTrue trivial

/-- Of a call that brings no chunk, nothing is taken. -/
theorem idles_of_chunk {d : Daemon} {e : DaemonEvent} (h : e.chunk = none) : e.Idles d := by
  cases e with
  | writeChunk id written flushed data => cases h
  | _ => trivial

end DaemonEvent

namespace ConnectedClient

/-- What a call leaves of its session, and what it queues. -/
def leaves (cli : ConnectedClient) (cfg : DaemonConfig) (d : Daemon) :
    DaemonEvent → ConnectedClient × Option FileToMove
  | .reset _ flushed => (cli.reset flushed, none)
  | .abort _ => (cli.abort.1, none)
  | .getNextFile _ limit src filter =>
      ((cli.getNextFile cfg d.stopRequested d.db limit src filter).2.1, none)
  | .readChunk _ avail => ((cli.readChunk cfg avail).1, none)
  | .postFile _ opens result =>
      ((cli.postFile cfg opens result).client, (cli.postFile cfg opens result).queued)
  | .writeChunk _ written flushed data =>
      ((cli.writeChunk cfg written flushed data).client,
        (cli.writeChunk cfg written flushed data).queued)
  | _ => (cli, none)

end ConnectedClient

namespace Daemon

open DaemonEvent (Made FilesWork Idles)

variable {cfg : DaemonConfig} {d : Daemon} {e : DaemonEvent} {id : SessionId}

theorem call_leaves (cfg : DaemonConfig) (d : Daemon) (cli : ConnectedClient) (he : e.caller = some id) :
    ∃ db, d.call cfg id cli e
      = { d.store id (cli.leaves cfg d e).1 (cli.leaves cfg d e).2 with db := db } := by
  cases e with
  | reset | readChunk | postFile | writeChunk => exact ⟨d.db, rfl⟩
  | getNextFile => exact ⟨_, rfl⟩
  | abort =>
    simp only [call, Daemon.abort, ConnectedClient.leaves]
    cases cli.abort.2 with
    | none => exact ⟨d.db, rfl⟩
    | some srcId => exact ⟨_, rfl⟩
  | _ => cases he

/-- A call changes its session, the queue and the database, if the session is known. -/
theorem step_of_caller (cfg : DaemonConfig) (he : e.caller = some id) :
    (d.session id = none ∧ (machine cfg).step d e = d) ∨
      ∃ cli db, d.session id = some cli ∧ (machine cfg).step d e
        = { d.store id (cli.leaves cfg d e).1 (cli.leaves cfg d e).2 with db := db } := by
  have hstep : ∀ known, d.session id = known →
      (machine cfg).step d e = known.elim d fun cli => d.call cfg id cli e := by
    intro known hknown
    show step cfg d e = _
    cases e with
    | reset | abort | getNextFile | readChunk | postFile | writeChunk =>
      obtain rfl := Option.some.inj he
      simp only [step, hknown]
      cases known <;> rfl
    | _ => cases he
  cases hcli : d.session id with
  | none => exact Or.inl ⟨rfl, hstep none hcli⟩
  | some cli =>
    obtain ⟨db, hcall⟩ := call_leaves cfg d cli he
    exact Or.inr ⟨cli, db, rfl, (hstep (some cli) hcli).trans hcall⟩

/-- What all sessions have in common they have after a call, if the one that called has it. -/
theorem forall_sessions_of_caller {Q : SessionId × ConnectedClient → Prop} (he : e.caller = some id)
    (h : ∀ r ∈ d.connections.rows, Q r)
    (hcall : ∀ cli, d.session id = some cli → Q (id, (cli.leaves cfg d e).1)) :
    ∀ r ∈ ((machine cfg).step d e).connections.rows, Q r := by
  rcases step_of_caller cfg he with ⟨-, hstep⟩ | ⟨cli, db, hcli, hstep⟩
  · rw [hstep]
    exact h
  · rw [hstep]
    intro r hr
    rcases (d.connections.mem_insert id _ r).mp hr with rfl | ⟨hr, -⟩
    · exact hcall cli hcli
    · exact h r hr

end Daemon

/-! ## A session -/

namespace ConnectedClient

variable {cli : ConnectedClient} {cfg : DaemonConfig}

/-- One file at most is open, and an output file that is open is good and not complete. -/
structure InOrder (cli : ConnectedClient) : Prop where
  exclusive : cli.outFile.isOpen = true → cli.inFile.isOpen = false
  closed : cli.outFile.isOpen = false → cli.outFile.file = []
  ready : cli.outFile.isOpen = true → cli.outFile.Ready
  below : cli.outFile.isOpen = true → cli.outFile.position < cli.encResult.fileLength.toNat

theorem inOrder_of_closed (hout : cli.outFile.isOpen = false) (hfile : cli.outFile.file = []) :
    cli.InOrder := by
  have hnot : ¬ cli.outFile.isOpen = true := by simp [hout]
  exact ⟨fun h => absurd h hnot, fun _ => hfile, fun h => absurd h hnot, fun h => absurd h hnot⟩

/-- It depends on little of the session. -/
theorem InOrder.of_same (h : cli.InOrder) {c : ConnectedClient} (hout : c.outFile = cli.outFile)
    (hin : c.inFile.isOpen = cli.inFile.isOpen) (henc : c.encResult = cli.encResult) : c.InOrder := by
  refine ⟨?_, ?_, ?_, ?_⟩
  · rw [hout, hin]
    exact h.exclusive
  · rw [hout]
    exact h.closed
  · rw [hout]
    exact h.ready
  · rw [hout, henc]
    exact h.below

/-- A read leaves the upload alone. -/
theorem readChunk_same (cli : ConnectedClient) (cfg : DaemonConfig) (avail : Nat) :
    (cli.readChunk cfg avail).1.outFile = cli.outFile
      ∧ (cli.readChunk cfg avail).1.inFile.isOpen = cli.inFile.isOpen
      ∧ (cli.readChunk cfg avail).1.encResult = cli.encResult := by
  unfold readChunk
  split
  · dsimp only
    split <;> exact ⟨rfl, Lib.InStream.isOpen_readsome .., rfl⟩
  · exact ⟨rfl, rfl, rfl⟩

theorem InOrder.reset (h : cli.InOrder) {flushed : Nat}
    (hflush : cli.outFile.isOpen = true → cli.outFile.Flushes flushed) :
    (cli.reset flushed).InOrder := by
  unfold ConnectedClient.reset
  by_cases hopen : cli.outFile.isOpen = true
  · have hin : ¬ cli.inFile.isOpen = true := by simp [h.exclusive hopen]
    rw [if_neg hin, if_pos hopen]
    have hcursor := OutStream.cursor_rewind (h.ready hopen) (hflush hopen)
    have hstill : (cli.outFile.rewind flushed).isOpen = true := by
      rw [OutStream.isOpen_rewind]
      exact hopen
    refine ⟨fun _ => h.exclusive hopen, ?_, fun _ => OutStream.ready_rewind (h.ready hopen) (hflush hopen), ?_⟩
    · intro hclosed
      cases hstill.symm.trans hclosed
    · intro _
      show (cli.outFile.rewind flushed).cursor.pos < _
      rw [hcursor]
      exact Nat.zero_lt_of_lt (h.below hopen)
  · split
    · exact h.of_same rfl (Lib.InStream.isOpen_rewind _) rfl
    · exact h

theorem InOrder.abort (h : cli.InOrder) : cli.abort.1.InOrder := by
  unfold ConnectedClient.abort
  split
  · exact inOrder_of_closed rfl rfl
  · exact h

/-- Whatever `getNextFile` does, it does without an output file, or it does nothing. -/
theorem getNextFile_same (cli : ConnectedClient) (cfg : DaemonConfig) (stopRequested : Bool) (db : Store)
    (limit : LimitOne) (src : SourceAnswers) (filter : MediaFileRequirements) :
    (cli.getNextFile cfg stopRequested db limit src filter).2.1.outFile = cli.outFile
      ∧ (cli.getNextFile cfg stopRequested db limit src filter).2.1.token = cli.token
      ∧ (cli.outFile.isOpen = true →
        (cli.getNextFile cfg stopRequested db limit src filter).2.1 = cli) := by
  rcases cli.getNextFile_refused_or_idle cfg stopRequested db limit src filter with
    ⟨e, heq⟩ | ⟨hin, hout⟩
  · rw [heq]
    exact ⟨rfl, rfl, fun _ => rfl⟩
  have hclosed : ¬ cli.outFile.isOpen = true := Bool.not_eq_true _ ▸ hout
  rcases getNextFile_cases hin hout cfg stopRequested db limit src filter with
    ⟨-, heq⟩ | ⟨db', srcId, file, -, -, ⟨-, e, -, heq⟩ | ⟨-, c, heq, -, htoken, houtc⟩⟩
  · rw [heq]
    exact ⟨rfl, rfl, fun h => absurd h hclosed⟩
  · rw [heq]
    exact ⟨rfl, rfl, fun h => absurd h hclosed⟩
  · rw [heq]
    exact ⟨houtc, htoken, fun h => absurd h hclosed⟩

theorem InOrder.getNextFile (h : cli.InOrder) (cfg : DaemonConfig) (stopRequested : Bool) (db : Store)
    (limit : LimitOne) (src : SourceAnswers) (filter : MediaFileRequirements) :
    (cli.getNextFile cfg stopRequested db limit src filter).2.1.InOrder := by
  obtain ⟨hout, -, hsame⟩ := cli.getNextFile_same cfg stopRequested db limit src filter
  cases hopen : cli.outFile.isOpen with
  | true =>
    rw [hsame hopen]
    exact h
  | false =>
    apply inOrder_of_closed
    · rw [hout]
      exact hopen
    · rw [hout]
      exact h.closed hopen

theorem InOrder.acceptResult (h : cli.InOrder) (hin : cli.inFile.isOpen = false) (opens : Bool)
    (result : EncodingResultInfo) : (cli.acceptResult cfg opens result).client.InOrder := by
  unfold ConnectedClient.acceptResult
  split
  · exact h
  · rename_i hnot
    have hout : cli.outFile.isOpen = false := by simpa using hnot
    by_cases hup : result.Uploads
    · simp only [hup, if_true]
      cases opens with
      | true =>
        refine ⟨fun _ => hin, nofun, fun _ => OutStream.ready_opened, fun _ => ?_⟩
        exact UInt64.lt_iff_toNat_lt.mp hup.2
      | false => exact inOrder_of_closed hout (h.closed hout)
    · simp only [hup, if_false]
      exact inOrder_of_closed rfl rfl

/-- A result opens an output file, or closes the session, or changes little. -/
theorem InOrder.postFile (h : cli.InOrder) (cfg : DaemonConfig) (opens : Bool)
    (result : EncodingResultInfo) : (cli.postFile cfg opens result).client.InOrder := by
  unfold ConnectedClient.postFile
  split
  · rename_i hin
    have hout : cli.outFile.isOpen = false := by
      cases hopen : cli.outFile.isOpen with
      | false => rfl
      | true => exact absurd (h.exclusive hopen) (by simp [hin])
    dsimp only
    split
    · exact inOrder_of_closed hout (h.closed hout)
    · have horder : ({ cli with inFile := cli.inFile.tellg.1.close } : ConnectedClient).InOrder :=
        inOrder_of_closed hout (h.closed hout)
      exact horder.acceptResult (Lib.InStream.isOpen_close _) opens result
  · rename_i hin
    exact h.acceptResult (by simpa using hin) opens result

theorem id_ne_zero_of_not_refuses {data : DataChunk} (h : cli.refuses data = false) :
    cli.originalFileId ≠ 0 := by
  simp only [refuses, Bool.or_eq_false_iff, decide_eq_false_iff_not] at h
  exact h.1.1.1.1

/-- A chunk is refused, or taken, or ends the upload; an empty one does not. -/
theorem InOrder.writeChunk (h : cli.InOrder) (cfg : DaemonConfig) {written : Lib.WriteAnswer UInt8}
    {flushed : Nat} {data : DataChunk} (hw : SoundWrite cli (.writeChunk written flushed data)) :
    (cli.writeChunk cfg written flushed data).client.InOrder
      ∧ (data.bytes = [] ∨ cli.refuses data = true →
        (cli.writeChunk cfg written flushed data).queued = none) := by
  by_cases hrefuses : cli.refuses data = true
  · rw [writeChunk_of_refuses hrefuses]
    exact ⟨h, fun _ => rfl⟩
  have hnot : cli.refuses data = false := by simpa using hrefuses
  have hopen := isOpen_of_not_refuses hnot
  obtain ⟨-, htakes, -⟩ := hw hnot
  have hready := h.ready hopen
  by_cases hmore : cli.outFile.position + data.size < cli.encResult.fileLength.toNat
  · rw [writeChunk_more hnot hready htakes hmore]
    refine ⟨⟨fun _ => h.exclusive hopen, ?_, fun _ => OutStream.ready_write hready htakes, ?_⟩, fun _ => rfl⟩
    · intro hclosed
      cases ((OutStream.isOpen_write ..).trans hopen).symm.trans hclosed
    · intro _
      have hpos : (cli.outFile.write written data.bytes).position = cli.outFile.position + data.size :=
        congrArg Lib.Cursor.pos (OutStream.cursor_write hready htakes)
      show (cli.outFile.write written data.bytes).position < _
      rw [hpos]
      exact hmore
  · rw [writeChunk_last hnot hready htakes (Nat.le_of_not_lt hmore)]
    refine ⟨inOrder_of_closed rfl rfl, ?_⟩
    rintro (hempty | hrefused)
    · have hbelow := h.below hopen
      rw [DataChunk.size, hempty] at hmore
      exact absurd hbelow hmore
    · exact absurd hrefused hrefuses

/-- A session keeps its token. -/
theorem token_leaves (cli : ConnectedClient) (cfg : DaemonConfig) (d : Daemon) (e : DaemonEvent) :
    (cli.leaves cfg d e).1.token = cli.token := by
  cases e with
  | reset id flushed => exact (cli.reset_spec flushed).token
  | readChunk id avail => exact (cli.readChunk_spec cfg avail).token
  | getNextFile id limit src filter =>
    exact (cli.getNextFile_same cfg d.stopRequested d.db limit src filter).2.1
  | abort id =>
    rcases cli.abort_spec with ⟨heq, -⟩ | ⟨-, hidle⟩
    · exact congrArg (·.1.token) heq
    · exact hidle.token
  | postFile id opens result =>
    rcases cli.postFile_spec cfg opens result with ⟨-, hsame⟩ | ⟨-, move, -, hands⟩
    · exact hsame.token
    · exact hands.token
  | writeChunk id written flushed data =>
    rcases cli.writeChunk_spec cfg written flushed data with ⟨-, hsame⟩ | ⟨-, move, -, hands⟩
    · exact hsame.token
    · exact hands.token
  | _ => rfl

/-- A call whose files work leaves a session in order. What it queues is a failure, or it is a chunk that
was taken. -/
theorem InOrder.leaves (h : cli.InOrder) (cfg : DaemonConfig) {d : Daemon} {e : DaemonEvent}
    {id : SessionId} (he : e.caller = some id) (hcli : d.session id = some cli) (hfiles : e.FilesWork d) :
    (cli.leaves cfg d e).1.InOrder
      ∧ ∀ move ∈ (cli.leaves cfg d e).2, e.Idles d → ¬ move.result.Uploads := by
  cases e with
  | reset id flushed =>
    obtain rfl := Option.some.inj he
    exact ⟨h.reset (hfiles cli hcli), nofun⟩
  | readChunk id avail =>
    obtain ⟨hout, hin, henc⟩ := cli.readChunk_same cfg avail
    exact ⟨h.of_same hout hin henc, nofun⟩
  | getNextFile id limit src filter => exact ⟨h.getNextFile cfg _ _ limit src filter, nofun⟩
  | abort id => exact ⟨h.abort, nofun⟩
  | postFile id opens result =>
    refine ⟨h.postFile cfg opens result, ?_⟩
    intro move hmove _
    rcases cli.postFile_spec cfg opens result with ⟨hnone, -⟩ | ⟨hup, move', hsome, hands⟩
    · cases hnone.symm.trans hmove
    · obtain rfl := Option.some.inj (hsome.symm.trans hmove)
      rw [hands.moveResult]
      exact hup
  | writeChunk id written flushed data =>
    obtain rfl := Option.some.inj he
    obtain ⟨horder, hnothing⟩ := h.writeChunk cfg (hfiles cli hcli)
    refine ⟨horder, ?_⟩
    intro move hmove hidles
    have hnone := hnothing (hidles.imp_right fun hrefused => hrefused cli hcli)
    cases hnone.symm.trans hmove
  | _ => cases he

end ConnectedClient

/-! ## All of the daemon -/

namespace Daemon

open DaemonEvent (Made FilesWork Idles)

variable {cfg : DaemonConfig} {d d' d'' : Daemon} {e : DaemonEvent} {token : Text} {id : SessionId}
  {cli : ConnectedClient} {R S : FileToMove → Prop}

/-- The queue of the mover gets longer, by entries of a kind. -/
def Adds (R : FileToMove → Prop) (d d' : Daemon) : Prop :=
  ∃ new, d'.filesToMove = d.filesToMove ++ new ∧ ∀ move ∈ new, R move

theorem Adds.of_eq (h : d'.filesToMove = d.filesToMove) : Adds R d d' :=
  ⟨[], by rw [h, List.append_nil], fun _ hmove => absurd hmove List.not_mem_nil⟩

theorem Adds.trans (h : Adds R d d') (h' : Adds R d' d'') : Adds R d d'' := by
  obtain ⟨new, heq, hnew⟩ := h
  obtain ⟨new', heq', hnew'⟩ := h'
  refine ⟨new ++ new', ?_, ?_⟩
  · rw [heq', heq, List.append_assoc]
  · intro move hmove
    rcases List.mem_append.mp hmove with hmove | hmove
    · exact hnew move hmove
    · exact hnew' move hmove

theorem Adds.mono (h : Adds R d d') (hRS : ∀ move, R move → S move) : Adds S d d' := by
  obtain ⟨new, heq, hnew⟩ := h
  exact ⟨new, heq, fun move hmove => hRS move (hnew move hmove)⟩

/-- What a handler hands to the mover. -/
theorem adds_store {queued : Option FileToMove} {db : Store} (hqueued : ∀ move ∈ queued, R move) :
    Adds R d { d.store id cli queued with db := db } :=
  ⟨queued.toList, rfl, fun move hmove => hqueued move (Option.mem_toList.mp hmove)⟩

/-- There is one token, and the sessions are in order. -/
structure InOrder (token : Text) (d : Daemon) : Prop where
  single : Single token d
  sessions : ∀ r ∈ d.connections.rows, r.2.InOrder

theorem inOrder_start (token : Text) (db : Store) : InOrder token (start db) :=
  ⟨single_start token db, fun _ hr => absurd hr List.not_mem_nil⟩

/-- Whatever a client calls, its session stays in order, and nothing but a chunk that is taken finishes an
upload. -/
theorem InOrder.step (h : InOrder token d) (cfg : DaemonConfig) (hmade : e.Made token)
    (hfiles : e.FilesWork d) :
    InOrder token ((machine cfg).step d e)
      ∧ Adds (fun move => e.Idles d → ¬ move.result.Uploads) d ((machine cfg).step d e) := by
  have hsingle : Single token ((machine cfg).step d e) := by
    apply (step_does cfg d e).single h.single
    rintro id junk token' rfl
    exact hmade
  cases hcaller : e.caller with
  | some id =>
    have hleaves := fun cli (hcli : d.session id = some cli) =>
      (h.sessions (id, cli) (d.connections.find?_eq_some.mp hcli)).leaves cfg hcaller hcli hfiles
    refine ⟨⟨hsingle, forall_sessions_of_caller hcaller h.sessions fun cli hcli =>
      (hleaves cli hcli).1⟩, ?_⟩
    rcases step_of_caller cfg hcaller with ⟨-, heq⟩ | ⟨cli, db, hcli, heq⟩
    · rw [heq]
      exact Adds.of_eq rfl
    · rw [heq]
      exact adds_store (hleaves cli hcli).2
  | none =>
    cases e with
    | authenticate id junk token' =>
      exact ⟨⟨hsingle, Connections.forall_authenticate h.sessions id junk token' fun _ =>
        ConnectedClient.inOrder_of_closed rfl rfl⟩, Adds.of_eq rfl⟩
    | fileSystemChange | moverTake | moverFinish | stop | restart => exact hmade.elim
    | _ => cases hcaller

/-- What is not a call of a client leaves the sessions alone and takes entries from the queue at most. -/
theorem InOrder.background (h : InOrder token d) (cfg : DaemonConfig) (he : e.Background) :
    InOrder token ((machine cfg).step d e) := by
  have hsame := connections_background (d := d) cfg he
  refine ⟨⟨?_, ?_⟩, ?_⟩
  · rw [hsame]
    exact h.single.tokens
  · rw [hsame]
    exact h.single.unique
  · rw [hsame]
    exact h.sessions

theorem queue_background (cfg : DaemonConfig) (he : e.Background) :
    ((machine cfg).step d e).filesToMove <:+ d.filesToMove := by
  show (Daemon.step cfg d e).filesToMove <:+ _
  cases e with
  | fileSystemChange getFileSize e dst =>
    simp only [Daemon.step, fileSystemChange]
    split <;> exact List.suffix_rfl
  | moverTake =>
    simp only [Daemon.step, moverTake]
    split
    · rename_i hqueue
      rw [hqueue]
      split <;> exact List.suffix_cons ..
    · exact List.suffix_rfl
  | moverFinish outcome =>
    simp only [Daemon.step, moverFinish]
    split <;> exact List.suffix_rfl
  | stop => exact List.suffix_rfl
  | _ => exact he.elim

/-- The only session becomes what the call leaves. -/
theorem Sole.leaves {P Q : ConnectedClient → Prop} (h : Sole token P d) (cfg : DaemonConfig)
    (he : e.caller = some id) (hcall : ∀ cli, d.session id = some cli → P cli → Q (cli.leaves cfg d e).1)
    (hunknown : ∀ cli, d.session id = none → P cli → Q cli) :
    Sole token Q ((machine cfg).step d e) := by
  rcases step_of_caller cfg he with ⟨hnone, heq⟩ | ⟨cli, db, hcli, heq⟩
  · rw [heq]
    exact h.mono fun cli _ => hunknown cli hnone
  · rw [heq]
    obtain ⟨htoken, hP⟩ := h.of_session hcli
    have hsame := (cli.token_leaves cfg d e).trans htoken
    have hstore := h.store hcli hsame (hcall cli hcli hP) (cli.leaves cfg d e).2
    exact hstore.of_connections rfl

/-- The queue gets longer by what the call leaves of the only session. -/
theorem Sole.adds {P : ConnectedClient → Prop} (h : Sole token P d) (cfg : DaemonConfig)
    (he : e.caller = some id)
    (hcall : ∀ cli, d.session id = some cli → P cli → ∀ move ∈ (cli.leaves cfg d e).2, R move) :
    Adds R d ((machine cfg).step d e) := by
  rcases step_of_caller cfg he with ⟨-, heq⟩ | ⟨cli, db, hcli, heq⟩
  · rw [heq]
    exact Adds.of_eq rfl
  · rw [heq]
    exact adds_store (hcall cli hcli (h.of_session hcli).2)

end Daemon

end MediaArchiver
