/-
# MediaArchiver.Daemon.Feedback -- the daemon does not archive its own archives

The mover puts archives next to their sources, into the folders that are watched, so the watcher reports
them. The name of an archive is never queued for work by its own report, but it may be what is left of
another name when a suffix is erased: `a_archived.mp4` is the counterpart of
`a_archived_archived.mp4`. Then it enters the catalogue as a source, together with an archive, and is
done from the start.

So the argument is not about names but about statuses. A source whose path is that of an archive is
catalogued with status 5 (`addFileCall_archive`), and no operation makes another status of it: the
watcher writes no other, and results and resets are for files that were handed out.
-/
import MediaArchiver.Store.Runs
import MediaArchiver.Daemon.Names

namespace MediaArchiver

open Lib (Machine AlongPast)

/-- What happens to the catalogue: the watcher reports a change, or a file is handed out, reset or
finished. -/
inductive CatalogueEvent where
  | fileSystemChange (getFileSize : Path → Option Nat) (e : EventType) (dst : Path)
  | getNextFile (limit : LimitOne) (filter : MediaFileRequirements)
  | addEncodedFile (file : EncodedFile)
  | reset (srcFileId : Nat)

namespace DaemonConfig

variable (cfg : DaemonConfig)

/-- The call of the database that an event leads to. -/
def storeCall : CatalogueEvent → Option StoreCall
  | .fileSystemChange getFileSize e dst =>
      (cfg.addFileCall getFileSize e dst).map fun call => .addFile call.src call.dst call.queue
  | .getNextFile limit filter => some (.getNextFile limit filter)
  | .addEncodedFile file => some (.addEncodedFile file)
  | .reset srcFileId => some (.reset srcFileId)

/-- The catalogue as a machine. -/
def catalogue : Machine Store CatalogueEvent where
  step db e :=
    match cfg.storeCall e with
    | some call => Store.machine.step db call
    | none => db

/-- The file that an event hands out. -/
def handsOut (db : Store) : CatalogueEvent → Option (Nat × BasicFileInfo)
  | .getNextFile limit filter => (db.getNextFile limit filter).2
  | _ => none

/-- Only files that were handed out are reset or finished. -/
def ReleasesHandedOut (past : List CatalogueEvent) : CatalogueEvent → Prop
  | .addEncodedFile file =>
      file.originalFileId ∈ (cfg.catalogue.outputs handsOut .empty past).map Prod.fst
  | .reset srcFileId => srcFileId ∈ (cfg.catalogue.outputs handsOut .empty past).map Prod.fst
  | _ => True

instance (past : List CatalogueEvent) : DecidablePred (cfg.ReleasesHandedOut past)
  | .addEncodedFile _ | .reset _ => inferInstanceAs (Decidable (_ ∈ _))
  | .getNextFile .. | .fileSystemChange .. => inferInstanceAs (Decidable True)

variable {cfg}

/-- A source with the name of an archive is reported together with an archive. -/
theorem addFileCall_archive {getFileSize : Path → Option Nat} {e : EventType} {dst : Path}
    {call : AddFileCall} (hcall : cfg.addFileCall getFileSize e dst = some call) {s : BasicFileInfo}
    (hs : Store.given call.src = some s) (harch : cfg.isArchive s.fileName = true) :
    (Store.given call.dst).isSome = true := by
  obtain ⟨hdst, size, -, hcase⟩ := addFileCall_cases hcall
  have hgiven : ∀ {f : BasicFileInfo}, f.fileName ≠ [] → (Store.given (some f)).isSome = true := by
    intro f hne
    simp [Store.given, Option.filter, hne]
  rcases hcase with ⟨-, aName, -, hpair⟩ | ⟨hnot, -, hpair⟩
  · obtain ⟨-, hd, -⟩ := pairUp_eq_some hpair
    rw [hd]
    exact hgiven hdst
  · -- the source is the file itself, which has not the name of an archive
    obtain ⟨hsrc, -, -⟩ := pairUp_eq_some hpair
    rw [hsrc] at hs
    obtain ⟨hs, -⟩ := Option.filter_eq_some_iff.mp hs
    obtain rfl := Option.some.inj hs
    rw [hnot] at harch
    cases harch

end DaemonConfig

namespace Store

variable {db : Store}

/-- A source with an unknown path, given together with an archive, is done. -/
theorem statuses_addFile_new (hwf : db.WellFormed) {src dst : Option BasicFileInfo}
    {s : BasicFileInfo} (hsrc : given src = some s) (hdst : (given dst).isSome = true)
    (hnew : ∀ row ∈ db.sourcefiles.rows, row.2.path ≠ s.fileName) (queue : Bool) :
    (db.addFile src dst queue).1.statuses db.sourcefiles.nextKey = [5] := by
  obtain ⟨d, hd⟩ := Option.isSome_iff_exists.mp hdst
  unfold addFile
  simp only [hsrc, hd, Option.isSome_some, addSource_unknown hnew (Bool.or_true queue), if_true]
  obtain ⟨mid, hmidEq⟩ : ∃ mid, { db with
      sourcefiles := db.sourcefiles.append ⟨s.fileName, s.fileSize⟩ }.insertQueue
        ⟨db.sourcefiles.nextKey, 5, 0, none⟩ = mid := ⟨_, rfl⟩
  have hmid : mid.statuses db.sourcefiles.nextKey = [5] := by
    rw [← hmidEq, statuses_insertQueue, if_pos rfl]
    exact congrArg (· ++ [5]) hwf.statuses_nextKey
  rw [hmidEq]
  have hspec := addArchive_spec mid d ⟨db.sourcefiles.nextKey, true, []⟩ true fun _ => rfl
  rcases hspec.statuses db.sourcefiles.nextKey with hsame | ⟨_, hset | ⟨hnil, _⟩⟩
  · exact hsame.trans hmid
  · rw [hset, hmid]
    rfl
  · rw [hmid] at hnil
    cases hnil

/-- A catalogue row that `addFile` adds is the row of its source. -/
theorem mem_rows_addFile {src dst : Option BasicFileInfo} {queue : Bool} {r : Nat × SourceFile}
    (hr : r ∈ (db.addFile src dst queue).1.sourcefiles.rows) :
    r ∈ db.sourcefiles.rows ∨
      ∃ s, given src = some s ∧ r = (db.sourcefiles.nextKey, ⟨s.fileName, s.fileSize⟩)
        ∧ ∀ row ∈ db.sourcefiles.rows, row.2.path ≠ s.fileName := by
  obtain ⟨mid, l, hs, hd⟩ := db.addFile_parts src dst queue
  have hmid : r ∈ mid.sourcefiles.rows := by
    rcases hd with ⟨_, heq⟩ | ⟨_, _, hd⟩
    · exact heq ▸ hr
    · exact hd.sourcefiles ▸ hr
  rcases hs with ⟨_, rfl, _⟩ | ⟨s, hgiven, hs⟩
  · exact Or.inl hmid
  · rcases hs.sourcefiles with ⟨heq, _⟩ | ⟨heq, hnew, _⟩
    · exact Or.inl (heq ▸ hmid)
    · rw [heq] at hmid
      rcases (db.sourcefiles.mem_append _ _).mp hmid with hold | hrow
      · exact Or.inl hold
      · exact Or.inr ⟨s, hgiven, hrow, hnew⟩

end Store

namespace DaemonConfig

variable {cfg : DaemonConfig} {db : Store}

/-- The tables are in order, and a source with the name of an archive is done. -/
structure ArchivesDone (cfg : DaemonConfig) (db : Store) : Prop where
  tables : db.WellFormed
  done : ∀ id file, (id, file) ∈ db.sourcefiles.rows → cfg.isArchive file.path = true →
    db.statuses id = [5]

/-- Whatever does not touch the rows of done sources keeps them done. -/
theorem ArchivesDone.of_statuses (h : ArchivesDone cfg db) {db' : Store} (hwf : db'.WellFormed)
    (hsrc : db'.sourcefiles = db.sourcefiles)
    (hst : ∀ id file, (id, file) ∈ db.sourcefiles.rows → cfg.isArchive file.path = true →
      db'.statuses id = db.statuses id) : ArchivesDone cfg db' := by
  refine ⟨hwf, ?_⟩
  intro id file hmem harch
  rw [hsrc] at hmem
  rw [hst id file hmem harch]
  exact h.done id file hmem harch

/-- What is handed out has not the name of an archive. -/
theorem ArchivesDone.getNextFile (h : ArchivesDone cfg db) {db' : Store} {limit : LimitOne}
    {filter : MediaFileRequirements} {id : Nat} {file : BasicFileInfo}
    (hget : db.getNextFile limit filter = (db', some (id, file))) :
    cfg.isArchive file.fileName = false ∧ ArchivesDone cfg db' := by
  have hres := Store.reserves_of_getNextFile hget
  have hwf := Store.wellFormed_getNextFile h.tables limit filter
  rw [hget] at hwf
  have hoffered : ∀ file', (id, file') ∈ db.sourcefiles.rows → cfg.isArchive file'.path = false := by
    intro file' hmem
    by_contra harch
    rw [Bool.not_eq_false] at harch
    have hoff := hres.offerable
    rw [h.done id file' hmem harch] at hoff
    exact Store.not_offerable_done hoff
  refine ⟨hoffered _ hres.catalogued, h.of_statuses hwf hres.sourcefiles ?_⟩
  intro id' file' hmem harch
  refine hres.others id' ?_
  rintro rfl
  rw [hoffered file' hmem] at harch
  cases harch

/-- A report of the watcher adds a source with the name of an archive as done. -/
theorem ArchivesDone.addFile (h : ArchivesDone cfg db) {getFileSize : Path → Option Nat}
    {e : EventType} {dst : Path} {call : AddFileCall}
    (hcall : cfg.addFileCall getFileSize e dst = some call) :
    ArchivesDone cfg (db.addFile call.src call.dst call.queue).1 := by
  refine ⟨Store.wellFormed_addFile h.tables call.src call.dst call.queue, ?_⟩
  intro id file hmem harch
  rcases Store.mem_rows_addFile hmem with hold | ⟨s, hs, hrow, hnew⟩
  · have hdone := h.done id file hold harch
    have hne : db.statuses id ≠ [] := by
      rw [hdone]
      exact List.cons_ne_nil _ _
    rcases db.statuses_addFile_of_queued call.src call.dst call.queue ⟨file, hold⟩ hne with
      hsame | hset
    · exact hsame.trans hdone
    · rw [hset, hdone]
      rfl
  · obtain ⟨rfl, rfl⟩ := Prod.mk.inj hrow
    exact Store.statuses_addFile_new h.tables hs (addFileCall_archive hcall hs harch) hnew call.queue

/-- An operation on the queue row of a file that was handed out. -/
theorem ArchivesDone.release (h : ArchivesDone cfg db) {id : Nat}
    (hid : ∃ file, (id, file) ∈ db.sourcefiles.rows ∧ cfg.isArchive file.path = false) {db' : Store}
    (hwf : db'.WellFormed) (hsrc : db'.sourcefiles = db.sourcefiles)
    (hothers : ∀ id', id' ≠ id → db'.statuses id' = db.statuses id') : ArchivesDone cfg db' := by
  obtain ⟨file, hmem, hnot⟩ := hid
  refine h.of_statuses hwf hsrc ?_
  intro id' file' hmem' harch
  refine hothers id' ?_
  rintro rfl
  rw [db.sourcefiles.eq_of_mem hmem' hmem, hnot] at harch
  cases harch

/-- What was handed out is catalogued under a path that is not that of an archive. -/
def HandedOutPlain (cfg : DaemonConfig) (db : Store) (a : Nat × BasicFileInfo) : Prop :=
  (a.1, ⟨a.2.fileName, a.2.fileSize⟩) ∈ db.sourcefiles.rows ∧ cfg.isArchive a.2.fileName = false

theorem rows_catalogue (db : Store) (e : CatalogueEvent) {r : Nat × SourceFile}
    (hr : r ∈ db.sourcefiles.rows) : r ∈ (cfg.catalogue.step db e).sourcefiles.rows := by
  simp only [catalogue]
  split
  · exact db.rows_step _ hr
  · exact hr

/-- One event keeps the catalogue free of archives to hand out, and hands out none. -/
theorem ArchivesDone.step (h : ArchivesDone cfg db) {e : CatalogueEvent}
    (hid : ∀ id, ((∃ file, e = .addEncodedFile file ∧ file.originalFileId = id) ∨ e = .reset id) →
      ∃ file, (id, file) ∈ db.sourcefiles.rows ∧ cfg.isArchive file.path = false) :
    ArchivesDone cfg (cfg.catalogue.step db e)
      ∧ ∀ a, handsOut db e = some a → HandedOutPlain cfg (cfg.catalogue.step db e) a := by
  cases e with
  | fileSystemChange getFileSize e dst =>
    refine ⟨?_, fun a ha => by cases ha⟩
    simp only [catalogue, storeCall]
    cases hcall : cfg.addFileCall getFileSize e dst with
    | none => exact h
    | some call => exact h.addFile hcall
  | getNextFile limit filter =>
    show ArchivesDone cfg (db.getNextFile limit filter).1 ∧ ∀ a,
      (db.getNextFile limit filter).2 = some a → HandedOutPlain cfg (db.getNextFile limit filter).1 a
    rcases db.getNextFile_cases limit filter with hnone | ⟨db', id, file, hsome, hres⟩
    · rw [hnone]
      exact ⟨h, fun a ha => by cases ha⟩
    · rw [hsome]
      obtain ⟨hplain, hdone⟩ := h.getNextFile hsome
      refine ⟨hdone, ?_⟩
      rintro a ha
      obtain rfl := Option.some.inj ha
      refine ⟨?_, hplain⟩
      rw [hres.sourcefiles]
      exact hres.catalogued
  | addEncodedFile file =>
    obtain ⟨f, hmem, hplain⟩ := hid file.originalFileId (Or.inl ⟨file, rfl, rfl⟩)
    refine ⟨h.release ⟨f, hmem, hplain⟩ ?_ (Store.sourcefiles_addEncodedFile db file) ?_,
      fun a ha => by cases ha⟩
    · exact Store.wellFormed_addEncodedFile h.tables file fun _ => ⟨f, hmem⟩
    · intro id' hne
      exact (Store.statuses_addEncodedFile db file id').trans (if_neg hne)
  | reset srcFileId =>
    refine ⟨h.release (hid srcFileId (Or.inr rfl)) ?_ rfl ?_, fun a ha => by cases ha⟩
    · exact Store.wellFormed_reset h.tables srcFileId
    · intro id' hne
      exact (Store.statuses_reset db srcFileId id').trans (if_neg hne)

/-- In every run of the catalogue that releases handed-out files only, no file with the name of an
archive is handed out. Such a name can be catalogued all the same. -/
theorem archives_not_handed_out :
    (∀ (cfg : DaemonConfig) (es : List CatalogueEvent), AlongPast cfg.ReleasesHandedOut [] es →
      ∀ a ∈ cfg.catalogue.outputs handsOut .empty es, cfg.isArchive a.2.fileName = false) ∧
    ∃ es, AlongPast gCfg.ReleasesHandedOut [] es ∧
      ∃ r ∈ (gCfg.catalogue.run .empty es).sourcefiles.rows, gCfg.isArchive r.2.path = true := by
  refine ⟨?_, ?_⟩
  · intro cfg es hes
    have hrun := cfg.catalogue.invariant_past (P := fun past db => ArchivesDone cfg db
      ∧ ∀ a ∈ cfg.catalogue.outputs handsOut .empty past, HandedOutPlain cfg db a)
      (s := Store.empty) ?_ ⟨⟨Store.wellFormed_empty, fun _ _ hmem => absurd hmem List.not_mem_nil⟩,
        fun _ ha => absurd ha List.not_mem_nil⟩ hes
    · exact fun a ha => (hrun.2 a ha).2
    · rintro past e ⟨hdone, hplain⟩ hguard
      have hstep := hdone.step (e := e) ?_
      · refine ⟨hstep.1, ?_⟩
        intro a ha
        rw [cfg.catalogue.outputs_concat] at ha
        rcases List.mem_append.mp ha with hold | hnow
        · exact ⟨rows_catalogue _ e (hplain a hold).1, (hplain a hold).2⟩
        · exact hstep.2 a (by simpa using hnow)
      · intro id hid
        have hout : id ∈ (cfg.catalogue.outputs handsOut .empty past).map Prod.fst := by
          rcases hid with ⟨file, rfl, rfl⟩ | rfl
          · exact hguard
          · exact hguard
        obtain ⟨a, ha, rfl⟩ := List.mem_map.mp hout
        exact ⟨_, (hplain a ha).1, (hplain a ha).2⟩
  · refine ⟨[.fileSystemChange (fun _ => some 1) .fileDiscovered "a_archived_archived.mp4".toList],
      ⟨trivial, trivial⟩, (1, ⟨"a_archived.mp4".toList, 1⟩), ?_, ?_⟩ <;> decide

/-- A source is handed out, fails, and is handed out again, while its archive is archived as well. -/
theorem archives_not_handed_out_again :
    let es : List CatalogueEvent := [
      .fileSystemChange (fun p => if p = "a.mov".toList then some 7 else none) .fileCreated
        "a.mov".toList,
      .fileSystemChange (fun _ => some 1) .fileDiscovered "a_archived_archived.mp4".toList,
      .getNextFile .first ⟨[], 0⟩, .addEncodedFile ⟨⟨-1, 0, []⟩, 1, []⟩, .getNextFile .first ⟨[], 0⟩,
      .reset 1, .getNextFile .first ⟨[], 0⟩]
    (gCfg.catalogue.outputs handsOut .empty es).map Prod.fst = [1, 1, 1]
      ∧ ∀ a ∈ gCfg.catalogue.outputs handsOut .empty es, gCfg.isArchive a.2.fileName = false := by
  intro es
  exact ⟨by decide, archives_not_handed_out.1 gCfg es (by decide)⟩

end DaemonConfig

end MediaArchiver
