/-
# MediaArchiver.Client.Archival -- a file gets into the archives

What the last chunk of a job leaves is an entry of the mover's queue. From there on the client does not
matter: it may ask for the next file, stop, or be lost. The mover takes turns (`InTurn`), and each turn brings
the entry closer to the one that moves it (`entries_step`).

So a job that gets that far ends with its encoded file at the place of the archive, and with a source that is
done and has an archive (`archived`).
-/
import MediaArchiver.Client.Jobs
import MediaArchiver.Daemon.MoverLoop

namespace MediaArchiver

open Lib (Machine)

/-! ## The mover's queue -/

/-- A turn of the mover. -/
def DaemonEvent.isTurn : DaemonEvent → Bool
  | .moverTake | .moverFinish _ => true
  | _ => false

namespace Daemon

variable {cfg : DaemonConfig} {d d' : Daemon} {e : DaemonEvent} {move : FileToMove}

/-- The mover finishes what it has taken, and takes something if there is anything. -/
def InTurn (d : Daemon) : DaemonEvent → Prop
  | .moverTake => d.moving = none ∧ d.filesToMove ≠ []
  | .moverFinish _ => d.moving ≠ none
  | _ => True

/-- How many turns come before the one that finishes an entry. -/
def turnsBefore (move : FileToMove) (d : Daemon) : Nat :=
  if d.moving = some move then 0 else 2 * d.filesToMove.idxOf move + 1 + d.moving.toList.length

theorem turnsBefore_le (move : FileToMove) (d : Daemon) :
    turnsBefore move d ≤ 2 * d.filesToMove.idxOf move + 1 + d.moving.toList.length := by
  unfold turnsBefore
  split
  · exact Nat.zero_le _
  · exact Nat.le_refl _

theorem turnsBefore_lt (h : move ∈ d.entries) : turnsBefore move d < 2 * d.entries.length := by
  have hpos := List.length_pos_of_mem h
  have hlength : d.entries.length = d.moving.toList.length + d.filesToMove.length := List.length_append
  unfold turnsBefore
  split
  · omega
  · next hother =>
    have hqueued : move ∈ d.filesToMove :=
      (List.mem_append.mp h).resolve_left fun hmoving => hother (Option.mem_toList.mp hmoving)
    have hindex := List.idxOf_lt_length_of_mem hqueued
    omega

/-- What others do, does not change the place of an entry. -/
theorem entries_outside (cfg : DaemonConfig) (he : e.outside = true) (h : move ∈ d.entries) :
    move ∈ ((machine cfg).step d e).entries ∧
      turnsBefore move ((machine cfg).step d e) = turnsBefore move d := by
  obtain ⟨hqueue, hmoving, -⟩ := step_outside cfg d he
  refine ⟨?_, ?_⟩
  · rw [entries, hqueue, hmoving, ← List.append_assoc]
    exact List.mem_append_left _ h
  · unfold turnsBefore
    rw [hmoving, hqueue]
    split
    · rfl
    · next hother =>
      have hqueued : move ∈ d.filesToMove :=
        (List.mem_append.mp h).resolve_left fun hmem => hother (Option.mem_toList.mp hmem)
      rw [List.idxOf_append_of_mem hqueued]

/-- A turn of the mover finishes the entry, or brings it closer to that. -/
theorem entries_turn (cfg : DaemonConfig) (hid : move.result.originalFileId ≠ 0) (hturn : d.InTurn e)
    (he : e.isTurn = true) (h : move ∈ d.entries) :
    (d.moving = some move ∧ ∃ outcome, e = .moverFinish outcome) ∨
      move ∈ ((machine cfg).step d e).entries ∧
        turnsBefore move ((machine cfg).step d e) + 1 ≤ turnsBefore move d := by
  show _ ∨ move ∈ (step cfg d e).entries ∧ turnsBefore move (step cfg d e) + 1 ≤ turnsBefore move d
  cases e with
  | moverTake =>
    obtain ⟨hnone, hne⟩ := hturn
    obtain ⟨first, rest, hqueue⟩ := List.exists_cons_of_ne_nil hne
    obtain ⟨hqueue', -, -, hmoving'⟩ := MoverLoop.moverTake_cons hnone hqueue
    have hmem : move = first ∨ move ∈ rest := by
      rwa [entries, hnone, hqueue, Option.toList_none, List.nil_append, List.mem_cons] at h
    have hbefore : turnsBefore move d = 2 * (first :: rest).idxOf move + 1 := by
      simp [turnsBefore, hnone, hqueue]
    show _ ∨ move ∈ d.moverTake.entries ∧ turnsBefore move d.moverTake + 1 ≤ turnsBefore move d
    refine Or.inr ?_
    by_cases hfirst : first = move
    · rw [if_neg (hfirst ▸ hid), hfirst] at hmoving'
      refine ⟨List.mem_append_left _ (Option.mem_toList.mpr hmoving'), ?_⟩
      rw [turnsBefore, if_pos hmoving', hbefore]
      omega
    · have hrest : move ∈ rest := hmem.resolve_left (Ne.symm hfirst)
      have hafter : turnsBefore move d.moverTake ≤ 2 * rest.idxOf move + 1 + 1 := by
        have hle := turnsBefore_le move d.moverTake
        have hone := Option.length_toList_le (o := d.moverTake.moving)
        rw [hqueue'] at hle
        omega
      rw [List.idxOf_cons_ne _ hfirst] at hbefore
      refine ⟨List.mem_append_right _ (hqueue' ▸ hrest), ?_⟩
      omega
  | moverFinish outcome =>
    obtain ⟨taken, hmoving⟩ := Option.ne_none_iff_exists'.mp hturn
    by_cases htaken : taken = move
    · exact Or.inl ⟨htaken ▸ hmoving, outcome, rfl⟩
    · have hrest : move ∈ d.filesToMove := by
        simpa [entries, hmoving, Ne.symm htaken] using h
      refine Or.inr ?_
      simp [step, moverFinish, hmoving, entries, turnsBefore, hrest, htaken]
  | _ => cases he

/-- A row of the queue stays. -/
theorem Does.queued_keep (hdoes : Does cfg d e d') {id : Nat} (h : d.db.statuses id ≠ []) :
    d'.db.statuses id ≠ [] := by
  have hreserve : ∀ {limit filter db' srcId file},
      d.db.getNextFile limit filter = (db', some (srcId, file)) → db'.statuses id ≠ [] := by
    intro limit filter db' srcId file hdb
    have hres := Store.reserves_of_getNextFile hdb
    by_cases hid : id = srcId
    · exact hid ▸ hres.queued
    · rw [hres.others id hid]
      exact h
  cases hdoes with
  | reserve _ _ _ hdb => exact hreserve hdb
  | strand _ _ _ _ hdb => exact hreserve hdb
  | abort =>
    show (d.db.reset _).statuses id ≠ []
    rw [Store.statuses_reset]
    split
    · simpa using h
    · exact h
  | @addFile getFileSize e dst call hcall =>
    show (d.db.addFile call.src call.dst call.queue).1.statuses id ≠ []
    apply Store.addFile_keeps (P := fun db => db.statuses id ≠ []) h
    · intro s dstGiven mid l hs hnil
      rcases hs.statuses id with hsame | ⟨-, hadd, -⟩
      · exact h (hsame ▸ hnil)
      · simp [hadd] at hnil
    · intro mid s l db' hs hmid
      rcases hs.statuses id with hsame | ⟨-, hset | ⟨hnil, -⟩⟩
      · rwa [hsame]
      · simpa [hset] using hmid
      · exact absurd hnil hmid
  | finish =>
    show (d.db.finishMove _ _).statuses id ≠ []
    rw [Store.statuses_finishMove]
    split
    · simpa using h
    · exact h
  | nothing | authenticate | keep | forget | postFile | writeChunk | drop | take | stop | restart => exact h

end Daemon

namespace Job

variable {cfg : DaemonConfig} {ccfg : ClientSettings} {job : Job} {p : Process Daemon} {e : NetworkEvent}
  {move : FileToMove}

/-! ## From the mover's queue to the archives -/

/-- The mover's entry for a job. -/
structure IsMove (cfg : DaemonConfig) (job : Job) (move : FileToMove) : Prop where
  result : move.result = ⟨job.result, job.id, cfg.getArchivedFileName job.name⟩
  content : move.tmp.content = job.encoded

/-- The mover has been handed the job. -/
def Handed (cfg : DaemonConfig) (job : Job) (p : Process Daemon) : Prop :=
  ∃ move ∈ p.line.server.entries, job.IsMove cfg move

/-- Nothing fails until the mover has the job, and then the mover takes its turns, and can move the file. -/
structure Serves (cfg : DaemonConfig) (ccfg : ClientSettings) (job : Job) (p : Process Daemon)
    (e : NetworkEvent) : Prop where
  obliging : ¬ Handed cfg job p → Obliging ccfg job p e
  turn : ∀ e' he, e = .background e' he → p.line.server.InTurn e'
  moves : ∀ outcome he move, e = .background (.moverFinish outcome) he →
    p.line.server.moving = some move → job.IsMove cfg move → outcome = .moved

/-- The encoded file is moved to the place of the archive. Then its source is done, and has an archive. -/
structure Archives (cfg : DaemonConfig) (ccfg : ClientSettings) (job : Job) (p : Process Daemon)
    (e : NetworkEvent) : Prop where
  moves : ∃ move he, p.line.server.moving = some move ∧ job.IsMove cfg move ∧
    e = .background (.moverFinish .moved) he
  queued : ((Network.machine cfg ccfg).step p e).line.server.db.statuses job.id ≠ []
  done : ∀ status ∈ ((Network.machine cfg ccfg).step p e).line.server.db.statuses job.id,
    status = EncodingResult.ok.value.toInt
  archived : ((Network.machine cfg ccfg).step p e).line.server.db.archives.HasKey job.id

/-- A turn of the mover, as the network sees it. -/
def turn : NetworkEvent → Bool
  | .background e _ => e.isTurn
  | _ => false

theorem Delivered.handed (h : Delivered cfg job p) : Handed cfg job p := by
  obtain ⟨before, move, hqueue, hresult, hcontent⟩ := h.queued
  refine ⟨move, List.mem_append_right _ ?_, hresult, hcontent⟩
  rw [hqueue]
  exact List.mem_append_right _ List.mem_cons_self

/-- What all events of the daemon keep, those of the network keep. -/
theorem keeps_network {P : Daemon → Prop} (cfg : DaemonConfig) (ccfg : ClientSettings)
    (hstep : ∀ d e, e.outside = true → P d → P ((Daemon.machine cfg).step d e)) (hturn : turn e = false)
    (hP : P p.line.server) : P ((Network.machine cfg ccfg).step p e).line.server := by
  cases e with
  | poll n a stop =>
    apply Process.keeps_poll ?_ stop hP
    apply Client.serverKeeps_of_step cfg n
    intro d e hcalls
    apply hstep d e
    cases e <;> first | rfl | exact hcalls.elim
  | stop forced => exact hP
  | background e he =>
    apply hstep _ e ?_ hP
    cases e <;> first | rfl | exact he.elim | cases hturn

/-- The source keeps its row of the queue. -/
theorem queued_step (cfg : DaemonConfig) (ccfg : ClientSettings) (e : NetworkEvent) {id : Nat}
    (h : p.line.server.db.statuses id ≠ []) :
    ((Network.machine cfg ccfg).step p e).line.server.db.statuses id ≠ [] := by
  cases hturn : turn e with
  | false =>
    exact keeps_network (P := fun d => d.db.statuses id ≠ []) cfg ccfg
      (fun d e _ hrow => (Daemon.step_does cfg d e).queued_keep hrow) hturn h
  | true =>
    cases e with
    | poll n a stop => cases hturn
    | stop forced => cases hturn
    | background e he => exact (Daemon.step_does cfg _ e).queued_keep h

/-- The move of a job that can be moved. -/
theorem archives_finish (hfits : job.Fits cfg ccfg) (hmove : job.IsMove cfg move) {he}
    (hmoving : p.line.server.moving = some move) (hqueued : p.line.server.db.statuses job.id ≠ []) :
    Archives cfg ccfg job p (.background (.moverFinish .moved) he) := by
  have hid : move.result.originalFileId = job.id := by rw [hmove.result]
  have hlength : move.result.fileLength ≠ 0 := by
    rw [hmove.result]
    intro hzero
    have hlength : (UInt64.ofNat job.encoded.length).toNat = job.encoded.length :=
      Link.toNat_length hfits.encoded
    have hencoded : job.encoded.length = 0 := hlength.symm.trans (congrArg UInt64.toNat hzero)
    exact hfits.last (hencoded ▸ Nat.dvd_zero _)
  have hdb : ((Network.machine cfg ccfg).step p (.background (.moverFinish .moved) he)).line.server.db
      = p.line.server.db.finishMove move .moved := by
    show (p.line.server.moverFinish .moved).db = _
    rw [Daemon.moverFinish, hmoving]
  refine ⟨⟨move, he, hmoving, hmove, rfl⟩, ?_, ?_, ?_⟩
  · rw [hdb, Store.statuses_finishMove, if_pos hid.symm]
    simpa using hqueued
  · rw [hdb, Store.statuses_finishMove, if_pos hid.symm]
    intro status hstatus
    obtain ⟨_, -, rfl⟩ := List.mem_map.mp hstatus
    rw [Store.movedStatus, if_neg fun h => h.2 rfl, hmove.result]
    rfl
  · rw [hdb, Store.hasKey_finishMove]
    exact Or.inl ⟨hid.symm, hlength, fun _ => rfl⟩

/-- Every event brings the entry closer to being moved, leaves it where it is, or moves it. -/
theorem entry_step (hfits : job.Fits cfg ccfg) (hmove : job.IsMove cfg move)
    (hentry : move ∈ p.line.server.entries) (hqueued : p.line.server.db.statuses job.id ≠ [])
    (hserves : Serves cfg ccfg job p e) :
    Archives cfg ccfg job p e ∨
      (move ∈ ((Network.machine cfg ccfg).step p e).line.server.entries ∧
          ((Network.machine cfg ccfg).step p e).line.server.db.statuses job.id ≠ []) ∧
        Daemon.turnsBefore move ((Network.machine cfg ccfg).step p e).line.server + (turn e).toNat
          ≤ Daemon.turnsBefore move p.line.server := by
  have hid : move.result.originalFileId ≠ 0 := by
    rw [hmove.result]
    exact hfits.id
  cases hturn : turn e with
  | false =>
    obtain ⟨hentry', hbefore⟩ := keeps_network (P := fun d => move ∈ d.entries ∧
      Daemon.turnsBefore move d = Daemon.turnsBefore move p.line.server) cfg ccfg
      (fun d e he ⟨hmem, hsame⟩ =>
        have hplace := Daemon.entries_outside cfg he hmem
        ⟨hplace.1, hplace.2.trans hsame⟩)
      hturn ⟨hentry, rfl⟩
    exact Or.inr ⟨⟨hentry', queued_step cfg ccfg e hqueued⟩, hbefore.le⟩
  | true =>
    cases e with
    | poll n a stop => cases hturn
    | stop forced => cases hturn
    | background e he =>
      rcases Daemon.entries_turn cfg hid (hserves.turn e he rfl) hturn hentry with
        ⟨hmoving, outcome, rfl⟩ | ⟨hentry', hbefore⟩
      · obtain rfl := hserves.moves outcome he move rfl hmoving hmove
        exact Or.inl (archives_finish hfits hmove hmoving hqueued)
      · exact Or.inr ⟨⟨hentry', queued_step cfg ccfg _ hqueued⟩, hbefore⟩

/-- The mover is handed the job. -/
theorem handed (hfits : job.Fits cfg ccfg) (hp : p.Undisturbed) (hstage : Stage ccfg job p)
    (hqueued : p.line.server.db.statuses job.id ≠ []) {es : List NetworkEvent}
    (hserves : (Network.machine cfg ccfg).Along (Serves cfg ccfg job) p es)
    (hpolls : rank job p < es.countP exited) :
    ∃ past rest, es = past ++ rest ∧ Handed cfg job ((Network.machine cfg ccfg).run p past) ∧
      ((Network.machine cfg ccfg).run p past).line.server.db.statuses job.id ≠ [] := by
  by_cases hnow : Handed cfg job p
  · exact ⟨[], es, rfl, hnow, hqueued⟩
  have hreached := (Network.machine cfg ccfg).reaches
    (P := fun q => ¬ Handed cfg job q ∧ (q.Undisturbed ∧ Stage ccfg job q) ∧
      q.line.server.db.statuses job.id ≠ [])
    (Q := fun q => Handed cfg job q ∧ q.line.server.db.statuses job.id ≠ []) (rank job) exited ?_
    ⟨hnow, ⟨hp, hstage⟩, hqueued⟩ hserves hpolls
  · obtain ⟨past, ⟨rest, rfl⟩, hhanded⟩ := hreached
    exact ⟨past, rest, rfl, hhanded⟩
  rintro q e ⟨hnot, ⟨hq, hstage⟩, hrow⟩ hserves
  have hrow' := queued_step cfg ccfg e hrow
  rcases stage_step hfits hq hstage (hserves.obliging hnot) with hdone | ⟨hnext, hrank⟩
  · exact Or.inl ⟨hdone.handed, hrow'⟩
  by_cases hnow' : Handed cfg job ((Network.machine cfg ccfg).step q e)
  · exact Or.inl ⟨hnow', hrow'⟩
  · exact Or.inr ⟨⟨hnow', hnext, hrow'⟩, hrank⟩

/-- In a run the entry is moved, or the turns have brought it closer to that. -/
theorem entry_run (hfits : job.Fits cfg ccfg) (hmove : job.IsMove cfg move)
    (hentry : move ∈ p.line.server.entries) (hqueued : p.line.server.db.statuses job.id ≠ [])
    {es : List NetworkEvent} (hserves : (Network.machine cfg ccfg).Along (Serves cfg ccfg job) p es) :
    (∃ past e rest, es = past ++ e :: rest ∧
        Archives cfg ccfg job ((Network.machine cfg ccfg).run p past) e) ∨
      (move ∈ ((Network.machine cfg ccfg).run p es).line.server.entries ∧
          ((Network.machine cfg ccfg).run p es).line.server.db.statuses job.id ≠ []) ∧
        Daemon.turnsBefore move ((Network.machine cfg ccfg).run p es).line.server + es.countP turn
          ≤ Daemon.turnsBefore move p.line.server :=
  (Network.machine cfg ccfg).happens_or_keeps
    (P := fun q => move ∈ q.line.server.entries ∧ q.line.server.db.statuses job.id ≠ [])
    (fun q => Daemon.turnsBefore move q.line.server) turn
    (fun _ _ hq hserves => entry_step hfits hmove hq.1 hq.2 hserves) ⟨hentry, hqueued⟩ hserves

/-- After enough polls and then enough turns of the mover, the file is in the archives. -/
theorem archived (hfits : job.Fits cfg ccfg) (hp : p.Undisturbed) (hstage : Stage ccfg job p)
    (hqueued : p.line.server.db.statuses job.id ≠ []) {es fs : List NetworkEvent}
    (hserves : (Network.machine cfg ccfg).Along (Serves cfg ccfg job) p (es ++ fs))
    (hpolls : rank job p < es.countP exited)
    (hturns : 2 * ((Network.machine cfg ccfg).run p es).line.server.entries.length ≤ fs.countP turn) :
    ∃ past e rest, es ++ fs = past ++ e :: rest ∧
      Archives cfg ccfg job ((Network.machine cfg ccfg).run p past) e := by
  obtain ⟨hserves, hserves'⟩ := ((Network.machine cfg ccfg).along_append ..).mp hserves
  obtain ⟨past, rest, rfl, ⟨move, hentry, hmove⟩, hrow⟩ := handed hfits hp hstage hqueued hserves hpolls
  have hrest := (((Network.machine cfg ccfg).along_append ..).mp hserves).2
  rcases entry_run hfits hmove hentry hrow hrest with ⟨before, e, after, rfl, hmoved⟩ | ⟨⟨hwaits, hrow'⟩, -⟩
  · refine ⟨past ++ before, e, after ++ fs, by simp, ?_⟩
    rw [Machine.run_append]
    exact hmoved
  rw [← Machine.run_append] at hwaits hrow'
  rcases entry_run hfits hmove hwaits hrow' hserves' with ⟨before, e, after, rfl, hmoved⟩ | ⟨-, hpaid⟩
  · refine ⟨past ++ rest ++ before, e, after, by simp, ?_⟩
    rw [Machine.run_append]
    exact hmoved
  · have hbefore := Daemon.turnsBefore_lt hwaits
    omega

instance (cfg : DaemonConfig) (job : Job) : DecidablePred (IsMove cfg job) := fun _ =>
  decidable_of_iff (_ ∧ _) ⟨fun h => ⟨h.1, h.2⟩, fun h => ⟨h.result, h.content⟩⟩

instance (cfg : DaemonConfig) (job : Job) : DecidablePred (Handed cfg job) := fun _ =>
  inferInstanceAs (Decidable (∃ move ∈ _, IsMove cfg job move))

/-- A file of one byte is in the queue, the client is polled eleven times, and the mover takes two turns. -/
theorem archived_one_byte :
    let p := Network.start 3 (Store.empty.addFile (some ⟨"a.mov".toList, 1⟩) none true).1
    let polls := List.replicate 11 Network.smooth
    let turns : List NetworkEvent := [.background .moverTake trivial, .background (.moverFinish .moved) trivial]
    ∃ past e rest, polls ++ turns = past ++ e :: rest ∧
      Archives twoPasses .gCfg oneByte ((Network.machine twoPasses .gCfg).run p past) e := by
  have hfits : oneByte.Fits twoPasses .gCfg :=
    ⟨by decide, by decide, by decide, by decide, by decide, by decide, by decide, by decide, by decide⟩
  intro p polls turns
  obtain ⟨hrunning, hstage⟩ := stage_start .gCfg oneByte 3 (Store.empty.addFile (some ⟨"a.mov".toList, 1⟩)
    none true).1
  refine archived hfits hrunning hstage (by decide) ?_ (by decide) (by decide +kernel)
  refine ((Network.machine twoPasses .gCfg).along_append ..).mpr ⟨?_, ?_⟩
  · refine along_smooth (P := fun q => Handed twoPasses oneByte q ∨ Offered q) ?_ (by decide +kernel)
    exact fun q hq => ⟨fun hnot => (hq.resolve_left hnot).obliging .gCfg, nofun, nofun⟩
  · refine ⟨⟨fun _ => trivial, ?_, nofun⟩, ⟨fun _ => trivial, ?_, ?_⟩, trivial⟩
    · rintro e he ⟨⟩
      show _ ∧ _
      decide +kernel
    · rintro e he ⟨⟩
      show _ ≠ _
      decide +kernel
    · rintro outcome he move ⟨⟩ - -
      rfl

end Job

end MediaArchiver
