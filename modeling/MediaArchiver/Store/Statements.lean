/-
# MediaArchiver.Store.Statements -- the calls, cut between two statements

`setupTables` wraps its statements in a transaction; the calls do not, so each of their statements is
committed by itself. Here the calls are scripts of statements. Run to the end they are the functions of
`MediaArchiver.Store.SQLite`; cut somewhere they leave what a daemon finds that was killed there.

`getNextFile` writes once, so it is all or nothing. `addEncodedFile` writes twice: cut in between, a source
is done and has no archive. `addFile` writes up to four times (the source, its queue row, the archive, the
status), and is all or nothing exactly if at most one of the writes is needed (`AtOnce`). The start
timestamps, which nothing reads, do not count.
-/
import MediaArchiver.Lib.Script
import MediaArchiver.Store.Settlement

namespace MediaArchiver

open Lib (Machine AlongPast Table AutoTable Script)

namespace Store

/-! ## The statements of the calls -/

/-- `insert into sourcefiles`. -/
def insertSource (db : Store) (src : BasicFileInfo) : Store :=
  { db with sourcefiles := db.sourcefiles.append ⟨src.fileName, src.fileSize⟩ }

/-- The statements of `getNextFile`. -/
def getNextFileScript (limit : LimitOne) (filter : MediaFileRequirements) :
    Script Store (Option (Nat × BasicFileInfo)) :=
  .select fun db =>
    match limit.keep (db.candidates filter) with
    | none => .done none
    | some (srcId, file) =>
        .select fun db =>
          if !db.queued srcId fun _ => true then
            .write (insertQueue · ⟨srcId, 1, 1, none⟩) (.done (some (srcId, ⟨file.path, file.size⟩)))
          else
            .write (updateQueue · srcId fun q => { q with status := 1, count := q.count + 1 })
              (.done (some (srcId, ⟨file.path, file.size⟩)))

/-- The statements of `addFile` after the source was looked up. -/
def sourceWrites (src : BasicFileInfo) (dstGiven queue : Bool) (l : SourceLookup) :
    Script Store (SourceLookup × Bool) :=
  -- `sqlite3_last_insert_rowid` is no statement
  (if l.srcId = 0 then
    .step (insertSource · src) fun db => .done { l with srcId := db.sourcefiles.nextKey }
  else .done l : Script Store SourceLookup).bind fun l =>
    if !l.inQueue && (queue || dstGiven) then
      .write (insertQueue · ⟨l.srcId, if dstGiven then 5 else 0, 0, none⟩)
        (.done ({ l with inQueue := true }, true))
    else .done (l, false)

/-- The statements of `addFile` for a source. -/
def sourceScript (src : BasicFileInfo) (dstGiven queue : Bool) : Script Store (SourceLookup × Bool) :=
  .select fun db => sourceWrites src dstGiven queue (db.lookupSource src.fileName)

/-- The statements of `addFile` after the archive was looked up. -/
def archiveWrites (dst : BasicFileInfo) (a : ArchiveLookup) : Script Store Nat :=
  if a.srcId = 0 then .done 0
  else
    (if a.found then .done () else
      .write (insertArchive · a.srcId dst.fileName) (.done ()) : Script Store Unit).bind fun _ =>
        if !a.inQueue then .write (insertQueue · ⟨a.srcId, 5, 0, none⟩) (.done a.srcId)
        else if !a.putToQueue then
          .write (updateQueue · a.srcId fun q => { q with status := 5, comment := none })
            (.done a.srcId)
        else .done a.srcId

/-- The statements of `addFile` for an archive. -/
def archiveScript (dst : BasicFileInfo) (l : SourceLookup) (putToQueue : Bool) : Script Store Nat :=
  if l.archiveName ≠ [] ∧ dst.fileName = l.archiveName then .done l.srcId
  else
    .select fun db => archiveWrites dst
      ((db.archiveRows dst.fileName).foldl ArchiveLookup.assign ⟨false, l.srcId, l.inQueue, putToQueue⟩)

/-- The statements of `addFile`. -/
def addFileScript (src dst : Option BasicFileInfo) (queue : Bool) : Script Store Nat :=
  (match given src with
    | some src => sourceScript src (given dst).isSome queue
    | none => .done (⟨0, false, []⟩, false)).bind fun (l, putToQueue) =>
      match given dst with
      | some dst => archiveScript dst l putToQueue
      | none => .done l.srcId

/-- The statements of `addEncodedFile`. -/
def addEncodedFileScript (file : EncodedFile) : Script Store Unit :=
  .write (updateQueue · file.originalFileId fun q =>
      { q with status := file.result.toInt, comment := comment file })
    (if 0 < file.fileLength then
      .write (insertArchive · file.originalFileId file.fileName) (.done ())
    else .done ())

theorem run_getNextFileScript (db : Store) (limit : LimitOne) (filter : MediaFileRequirements) :
    (getNextFileScript limit filter).run db = db.getNextFile limit filter := by
  unfold getNextFileScript getNextFile Script.select
  simp only [Script.run, id]
  cases limit.keep (db.candidates filter) with
  | none => rfl
  | some row =>
    simp only [Script.run, id]
    cases db.queued row.1 fun _ => true <;> rfl

theorem run_sourceScript (db : Store) (src : BasicFileInfo) (dstGiven queue : Bool) :
    (sourceScript src dstGiven queue).run db = db.addSource src dstGiven queue := by
  unfold addSource catalogue
  show (sourceWrites src dstGiven queue (db.lookupSource src.fileName)).run db = _
  rw [sourceWrites, Script.run_bind]
  by_cases hid : (db.lookupSource src.fileName).srcId = 0
  · simp only [hid, if_true, Script.run]
    split <;> rfl
  · simp only [hid, if_false, Script.run]
    split <;> rfl

theorem run_archiveScript (db : Store) (dst : BasicFileInfo) (l : SourceLookup) (putToQueue : Bool) :
    (archiveScript dst l putToQueue).run db = db.addArchive dst l putToQueue := by
  unfold archiveScript addArchive
  split
  · rfl
  · show (archiveWrites dst ((db.archiveRows dst.fileName).foldl ArchiveLookup.assign
      ⟨false, l.srcId, l.inQueue, putToQueue⟩)).run db = _
    generalize (db.archiveRows dst.fileName).foldl ArchiveLookup.assign
      ⟨false, l.srcId, l.inQueue, putToQueue⟩ = a
    by_cases hid : a.srcId = 0
    · simp only [archiveWrites, hid, if_true, Script.run]
    · simp only [archiveWrites, if_neg hid, Script.run_bind]
      cases a.found <;> cases a.inQueue <;> cases a.putToQueue <;> rfl

theorem run_addFileScript (db : Store) (src dst : Option BasicFileInfo) (queue : Bool) :
    (addFileScript src dst queue).run db = db.addFile src dst queue := by
  unfold addFileScript addFile
  rw [Script.run_bind]
  cases given src with
  | none =>
    cases given dst with
    | none => rfl
    | some d => exact run_archiveScript db d _ _
  | some s =>
    simp only [run_sourceScript]
    cases given dst with
    | none => rfl
    | some d => exact run_archiveScript _ d _ _

theorem run_addEncodedFileScript (db : Store) (file : EncodedFile) :
    ((addEncodedFileScript file).run db).1 = db.addEncodedFile file := by
  unfold addEncodedFileScript addEncodedFile
  split <;> rfl

/-! ## Which statements change the tables -/

variable {db : Store}

/-- What the statements of `addFile` only ever add to. -/
def weight (db : Store) : Nat :=
  db.sourcefiles.rows.length + db.archives.rows.length + db.queue.length
    + db.queue.countP fun q => q.status = 5 ∧ q.comment = none

theorem weight_insertSource (db : Store) (src : BasicFileInfo) :
    db.weight < (db.insertSource src).weight := by
  simp only [weight, insertSource, AutoTable.rows_append, List.length_append, List.length_singleton]
  omega

theorem weight_insertQueue (db : Store) (row : QueueRow) : db.weight < (db.insertQueue row).weight := by
  simp only [weight, insertQueue, List.length_append, List.length_singleton, List.countP_append]
  omega

theorem insertSource_ne (db : Store) (src : BasicFileInfo) : db.insertSource src ≠ db := by
  intro h
  exact absurd (congrArg weight h) (Nat.ne_of_gt (db.weight_insertSource src))

theorem insertQueue_ne (db : Store) (row : QueueRow) : db.insertQueue row ≠ db := by
  intro h
  exact absurd (congrArg weight h) (Nat.ne_of_gt (db.weight_insertQueue row))

theorem insertArchive_eq_self {k : Nat} {path : Path} :
    db.insertArchive k path = db ↔ db.archives.HasKey k := by
  constructor
  · intro h
    rw [← h]
    exact (hasKey_insertArchive ..).mpr (Or.inl rfl)
  · intro h
    exact insertArchive_of_hasKey h path

theorem finish_eq_self {k : Nat} : db.finish k = db ↔ db.Finished k := by
  constructor
  · intro h
    rw [← h]
    exact finished_finish db k
  · exact finish_of_finished

theorem weight_insertArchive (db : Store) (k : Nat) (path : Path) :
    db.insertArchive k path = db ∨ db.weight < (db.insertArchive k path).weight := by
  by_cases hkey : db.archives.HasKey k
  · exact Or.inl (insertArchive_of_hasKey hkey path)
  · right
    have hnew : (db.insertArchive k path).archives = db.archives.insert k path :=
      if_neg fun h => hkey (db.archives.isSome_find?.mp h)
    have hcount := db.archives.countP_insert k path fun _ => true
    have hnone : db.archives.rows.filter (fun r => r.1 = k) = [] := by
      rw [List.filter_eq_nil_iff]
      rintro ⟨k', v⟩ hmem hk
      obtain rfl : k' = k := of_decide_eq_true hk
      exact hkey ⟨v, hmem⟩
    simp only [hnone, List.countP_nil, List.countP_true, if_true, Nat.add_zero] at hcount
    show db.weight < db.sourcefiles.rows.length + (db.insertArchive k path).archives.rows.length
      + db.queue.length + _
    rw [hnew, hcount]
    unfold weight
    show _ < _ + _ + _ + db.queue.countP _
    omega

/-- A map that makes its elements satisfy a predicate changes nothing, or makes more of them do. -/
theorem map_eq_or_countP_lt {α : Type} {g : α → α} {p : α → Bool}
    (h : ∀ a, g a = a ∨ (p a = false ∧ p (g a) = true)) (l : List α) :
    l.map g = l ∨ l.countP p < (l.map g).countP p := by
  induction l with
  | nil => exact Or.inl rfl
  | cons a l ih =>
    have hle : l.countP p ≤ (l.map g).countP p := by
      rcases ih with ih | ih
      · rw [ih]
      · exact Nat.le_of_lt ih
    rw [List.map_cons, List.countP_cons, List.countP_cons]
    rcases h a with hsame | ⟨hold, hnew⟩
    · rw [hsame]
      rcases ih with ih | ih
      · exact Or.inl (by rw [ih])
      · exact Or.inr (by omega)
    · right
      rw [hold, hnew]
      simp only [Bool.false_eq_true, if_false, if_true]
      omega

theorem weight_finish (db : Store) (k : Nat) : db.finish k = db ∨ db.weight < (db.finish k).weight := by
  have hrow : ∀ q : QueueRow,
      (if q.id = k then { q with status := 5, comment := none } else q) = q ∨
        (decide (q.status = 5 ∧ q.comment = none) = false ∧
          decide ((if q.id = k then { q with status := 5, comment := none } else q).status = 5 ∧
            (if q.id = k then { q with status := 5, comment := none } else q).comment = none) = true) := by
    intro q
    by_cases hid : q.id = k
    · by_cases hq : q.status = 5 ∧ q.comment = none
      · left
        obtain ⟨id, status, count, comment⟩ := q
        obtain ⟨rfl, rfl⟩ : status = 5 ∧ comment = none := hq
        exact if_pos hid
      · simp [hid, hq]
    · exact Or.inl (if_neg hid)
  rcases map_eq_or_countP_lt hrow db.queue with hsame | hless
  · exact Or.inl (congrArg (fun queue => { db with queue := queue }) hsame)
  · right
    simp only [weight, finish, updateQueue, List.length_map]
    omega

/-! ## No statement of `addFile` undoes another -/

theorem rising_archiveScript (dst : BasicFileInfo) (l : SourceLookup) (putToQueue : Bool) :
    (archiveScript dst l putToQueue).Rising weight := by
  unfold archiveScript
  split
  · trivial
  apply Script.rising_select
  intro db
  unfold archiveWrites
  split
  · trivial
  apply Script.rising_bind
  · split
    · trivial
    · exact ⟨fun db => weight_insertArchive db _ _, fun _ => trivial⟩
  · intro _
    split
    · exact ⟨fun db => Or.inr (weight_insertQueue db _), fun _ => trivial⟩
    · split
      · exact ⟨fun db => weight_finish db _, fun _ => trivial⟩
      · trivial

theorem rising_sourceWrites (src : BasicFileInfo) (dstGiven queue : Bool) (l : SourceLookup) :
    (sourceWrites src dstGiven queue l).Rising weight := by
  apply Script.rising_bind
  · split
    · exact ⟨fun db => Or.inr (weight_insertSource db src), fun _ => trivial⟩
    · trivial
  · intro l
    split
    · exact ⟨fun db => Or.inr (weight_insertQueue db _), fun _ => trivial⟩
    · trivial

/-! ## The source part, followed by anything -/

section Source

variable {src : BasicFileInfo} {dstGiven queue : Bool} {α : Type}
  {g : SourceLookup × Bool → Script Store α}

/-- A source that is known, and queued or not to be queued, is only looked up. -/
theorem allOrNothing_source_known (hwf : db.WellFormed) {k : Nat}
    (hk : db.sourceOf src.fileName = some k) (hput : db.statuses k ≠ [] ∨ (queue || dstGiven) = false) :
    ((sourceScript src dstGiven queue).bind g).AllOrNothing db ↔
      (g (⟨k, decide (db.statuses k ≠ []), (db.archives.find? k).getD []⟩, false)).AllOrNothing db := by
  have hne := sourceOf_ne_zero hk
  have hskip : (!decide (db.statuses k ≠ []) && (queue || dstGiven)) = false := by
    rcases hput with hq | hput
    · simp [hq]
    · rw [hput, Bool.and_false]
  refine (Script.allOrNothing_step_same rfl).trans ?_
  show ((sourceWrites src dstGiven queue (db.lookupSource src.fileName)).bind g).AllOrNothing db ↔ _
  rw [lookupSource_eq hwf, hk]
  simp only [sourceWrites, if_neg hne, Script.bind, hskip, Bool.false_eq_true, if_false]

/-- The queue row of a known source is the only write there may be. -/
theorem allOrNothing_source_enqueue (hwf : db.WellFormed) {k : Nat}
    (hk : db.sourceOf src.fileName = some k) (hnil : db.statuses k = [])
    (hput : (queue || dstGiven) = true) (hg : ∀ a, (g a).Rising weight) :
    ((sourceScript src dstGiven queue).bind g).AllOrNothing db ↔
      (g (⟨k, true, (db.archives.find? k).getD []⟩, true)).Still
        (db.enqueue k (if dstGiven then 5 else 0)) := by
  have hne := sourceOf_ne_zero hk
  refine (Script.allOrNothing_step_same rfl).trans ?_
  show ((sourceWrites src dstGiven queue (db.lookupSource src.fileName)).bind g).AllOrNothing db ↔ _
  rw [lookupSource_eq hwf, hk]
  simp only [sourceWrites, if_neg hne, Script.bind, hnil, ne_eq, not_true_eq_false, decide_false,
    Bool.not_false, hput, Bool.and_self, if_true, Script.write]
  rw [Script.allOrNothing_step_ne ⟨fun db => Or.inr (weight_insertQueue db _), fun _ => hg _⟩
    (insertQueue_ne db _), enqueue, if_pos hnil]

/-- A new source is a write; there may be no other. -/
theorem allOrNothing_source_new (hwf : db.WellFormed) (hk : db.sourceOf src.fileName = none)
    (hg : ∀ a, (g a).Rising weight) :
    ((sourceScript src dstGiven queue).bind g).AllOrNothing db ↔
      (queue || dstGiven) = false ∧
        (g (⟨db.sourcefiles.nextKey, false, []⟩, false)).Still (db.insertSource src) := by
  have hrise := Script.rising_bind (rising_sourceWrites src dstGiven queue ⟨0, false, []⟩) hg
  refine (Script.allOrNothing_step_same rfl).trans ?_
  show ((sourceWrites src dstGiven queue (db.lookupSource src.fileName)).bind g).AllOrNothing db ↔ _
  rw [lookupSource_eq hwf, hk]
  refine (Script.allOrNothing_step_ne hrise (insertSource_ne db src)).trans ?_
  show ((if (!false && (queue || dstGiven)) = true then _ else Script.done _ :
    Script Store (SourceLookup × Bool)).bind g).Still (db.insertSource src) ↔ _
  cases hput : queue || dstGiven with
  | true =>
    simp only [Bool.not_false, Bool.and_true, if_true, Script.bind, Script.write, Script.still_step]
    apply iff_of_false
    · exact fun h => insertQueue_ne _ _ h.1
    · exact fun h => absurd h.1 (by decide)
  | false => simp only [Bool.and_false, Bool.false_eq_true, if_false, Script.bind, true_and]

end Source

/-! ## The archive part -/

section Archive

variable {dst : BasicFileInfo} {k : Nat}

/-- The name that was looked up is the archive's. -/
theorem archiveName_iff (hdst : dst.fileName ≠ []) :
    ((db.archives.find? k).getD [] ≠ [] ∧ dst.fileName = (db.archives.find? k).getD []) ↔
      db.archives.find? k = some dst.fileName := by
  cases db.archives.find? k with
  | none => simp
  | some name =>
    simp only [Option.getD_some, Option.some.injEq]
    constructor
    · exact fun h => h.2.symm
    · rintro rfl
      exact ⟨hdst, rfl⟩

/-- Nothing is written of an archive that is known but its queue row. -/
theorem allOrNothing_archiveWrites (dst : BasicFileInfo) {a : ArchiveLookup} (hfound : a.found = true) :
    (archiveWrites dst a).AllOrNothing db := by
  simp only [archiveWrites, hfound, if_true, Script.bind]
  split
  · exact Script.allOrNothing_done _ _
  split
  · exact Script.allOrNothing_one db
  split
  · exact Script.allOrNothing_one db
  · exact Script.allOrNothing_done _ _

/-- An archive of a source that was queued before the call. -/
theorem allOrNothing_archive (hwf : db.WellFormed) (hdst : dst.fileName ≠ []) (hk : k ≠ 0) :
    (archiveScript dst ⟨k, true, (db.archives.find? k).getD []⟩ false).AllOrNothing db ↔
      db.archives.find? k = some dst.fileName ∨
        (db.archiveOf dst.fileName = none → db.archives.HasKey k ∨ db.Finished k) := by
  unfold archiveScript
  simp only [archiveName_iff hdst]
  split
  · rename_i hname
    exact iff_of_true (Script.allOrNothing_done _ _) (Or.inl hname)
  rename_i hname
  refine (Script.allOrNothing_step_same rfl).trans ?_
  show (archiveWrites dst ((db.archiveRows dst.fileName).foldl ArchiveLookup.assign
    ⟨false, k, true, false⟩)).AllOrNothing db ↔ _
  rw [lookupArchive_eq hwf]
  simp only [hname, false_or]
  cases hm : db.archiveOf dst.fileName with
  | none =>
    simp only [archiveWrites, if_neg hk, Bool.false_eq_true, if_false, Bool.not_true, Bool.not_false, if_true,
      forall_const]
    refine Script.allOrNothing_two.trans ?_
    rw [insertArchive_eq_self]
    show _ ∨ (db.insertArchive k dst.fileName).finish k = db.insertArchive k dst.fileName ↔ _
    rw [finish_eq_self]
    exact Iff.rfl
  | some m =>
    refine iff_of_true ?_ fun h => absurd h (by simp)
    exact allOrNothing_archiveWrites dst rfl

/-- An archive of a source that got its queue row in the call: nothing else may be written. -/
theorem still_archive (hwf : db.WellFormed) (hdst : dst.fileName ≠ []) (hk : k ≠ 0) :
    (archiveScript dst ⟨k, true, (db.archives.find? k).getD []⟩ true).Still db ↔
      db.archives.find? k = some dst.fileName ∨
        ((db.archiveOf dst.fileName = none → db.archives.HasKey k) ∧
          ∀ m, db.archiveOf dst.fileName = some m → db.Done m) := by
  unfold archiveScript
  simp only [archiveName_iff hdst]
  split
  · rename_i hname
    exact iff_of_true (Script.still_done _ _) (Or.inl hname)
  rename_i hname
  refine Script.still_step.trans ?_
  show _ ∧ (archiveWrites dst ((db.archiveRows dst.fileName).foldl ArchiveLookup.assign
    ⟨false, k, true, true⟩)).Still db ↔ _
  rw [lookupArchive_eq hwf]
  simp only [hname, false_or, id, true_and]
  cases hm : db.archiveOf dst.fileName with
  | none =>
    simp only [archiveWrites, if_neg hk, Bool.false_eq_true, if_false, Bool.not_true, forall_const,
      Script.bind, Script.write, Script.still_step, insertArchive_eq_self]
    simp [Script.still_done]
  | some m =>
    have hne : m ≠ 0 := by
      rintro rfl
      obtain ⟨file, hmem⟩ := hwf.archives 0 ⟨_, (archiveOf_eq_some.mp hm).1⟩
      exact absurd rfl (Nat.ne_of_gt (db.sourcefiles.key_pos _ hmem))
    simp only [archiveWrites, if_neg hne, if_true, Script.bind]
    by_cases hdone : db.Done m
    · have hq : db.statuses m ≠ [] := by
        obtain ⟨status, hst, -⟩ := hdone
        exact List.ne_nil_of_mem hst
      simp [hq, hdone, Script.still_done]
    · apply iff_of_false
      · intro hstill
        by_cases hq : db.statuses m = []
        · simp only [hq, ne_eq, not_true_eq_false, decide_false, Bool.not_false, if_true, Script.write,
            Script.still_step] at hstill
          exact insertQueue_ne db _ hstill.1
        · simp only [ne_eq, hq, not_false_eq_true, decide_true, Bool.not_true, Bool.false_eq_true,
            if_false, hdone, decide_false, Bool.not_false, if_true, Script.write,
            Script.still_step] at hstill
          obtain ⟨status, hst⟩ := List.exists_mem_of_ne_nil _ hq
          have hfin : db.finish m = db := hstill.1
          rw [← hfin] at hdone
          exact hdone (done_finish hq)
      · exact fun h => hdone (h.2 m rfl)

end Archive

/-! ## The calls -/

/-- At most one write of the call is needed. A source that comes with an archive has to be known; if it is
not queued, the archive must be recorded and settled already; if it is, a new archive may not have to be
recorded and the status changed both. -/
def AtOnce (db : Store) : Option BasicFileInfo → Option BasicFileInfo → Bool → Prop
  | none, _, _ => True
  | some src, none, queue => db.sourceOf src.fileName = none → queue = false
  | some src, some dst, _ =>
      ∃ k, db.sourceOf src.fileName = some k ∧
        (db.archives.find? k = some dst.fileName ∨
          if db.statuses k = [] then
            (db.archiveOf dst.fileName = none → db.archives.HasKey k) ∧
              ∀ m, db.archiveOf dst.fileName = some m → db.Done m
          else db.archiveOf dst.fileName = none → db.archives.HasKey k ∨ db.Finished k)

theorem allOrNothing_getNextFile (db : Store) (limit : LimitOne) (filter : MediaFileRequirements) :
    (getNextFileScript limit filter).AllOrNothing db := by
  refine (Script.allOrNothing_step_same rfl).mpr ?_
  split
  · exact Script.allOrNothing_done _ _
  · refine (Script.allOrNothing_step_same rfl).mpr ?_
    split
    · exact Script.allOrNothing_one db
    · exact Script.allOrNothing_one db

/-- An archive without a source is one write at most. -/
theorem allOrNothing_archive_alone (hwf : db.WellFormed) (dst : BasicFileInfo) :
    (archiveScript dst ⟨0, false, []⟩ false).AllOrNothing db := by
  unfold archiveScript
  split
  · exact Script.allOrNothing_done _ _
  refine (Script.allOrNothing_step_same rfl).mpr ?_
  show (archiveWrites dst ((db.archiveRows dst.fileName).foldl ArchiveLookup.assign
    ⟨false, 0, false, false⟩)).AllOrNothing db
  rw [lookupArchive_eq hwf]
  cases db.archiveOf dst.fileName with
  | none => exact Script.allOrNothing_done _ _
  | some m => exact allOrNothing_archiveWrites dst rfl

/-- An archive for a source that is not queued. -/
theorem still_archive_enqueue (hwf : db.WellFormed) {src dst : BasicFileInfo} (hdst : dst.fileName ≠ [])
    {k : Nat} (hk : db.sourceOf src.fileName = some k) :
    (archiveScript dst ⟨k, true, (db.archives.find? k).getD []⟩ true).Still (db.enqueue k 5) ↔
      db.archives.find? k = some dst.fileName ∨
        ((db.archiveOf dst.fileName = none → db.archives.HasKey k) ∧
          ∀ m, db.archiveOf dst.fileName = some m → db.Done m) := by
  have hmid : (db.enqueue k 5).WellFormed := by
    have hentered := wellFormed_entered hwf src
    rwa [enter_of_known hk] at hentered
  have harch : (db.enqueue k 5).archiveOf dst.fileName = db.archiveOf dst.fileName := by
    unfold archiveOf
    rw [archives_enqueue]
  have hstill := still_archive hmid hdst (sourceOf_ne_zero hk)
  rw [archives_enqueue, harch] at hstill
  refine hstill.trans ?_
  by_cases hname : db.archives.find? k = some dst.fileName
  · simp only [hname, true_or]
  simp only [hname, false_or]
  refine and_congr_right fun _ => forall_congr' fun m => ?_
  refine imp_congr_right fun hm => ?_
  have hother : m ≠ k := by
    rintro rfl
    exact hname ((Table.find?_eq_some _).mpr (archiveOf_eq_some.mp hm).1)
  unfold Done
  rw [statuses_enqueue, if_neg fun h => hother h.1]

theorem allOrNothing_addFile (hwf : db.WellFormed) (src dst : Option BasicFileInfo) (queue : Bool) :
    (addFileScript src dst queue).AllOrNothing db ↔ db.AtOnce (given src) (given dst) queue := by
  unfold addFileScript
  cases given src with
  | none =>
    refine iff_of_true ?_ trivial
    cases given dst with
    | none => exact Script.allOrNothing_done _ _
    | some d => exact allOrNothing_archive_alone hwf d
  | some s =>
    cases hdst : given dst with
    | none =>
      simp only [Option.isSome_none, AtOnce]
      cases hk : db.sourceOf s.fileName with
      | none =>
        refine (allOrNothing_source_new hwf hk ?_).trans ?_
        · exact fun _ => trivial
        · simp [Script.still_done]
      | some k =>
        refine iff_of_true ?_ fun h => absurd h (by simp)
        by_cases hput : db.statuses k ≠ [] ∨ (queue || false) = false
        · rw [allOrNothing_source_known hwf hk hput]
          exact Script.allOrNothing_done _ _
        · obtain ⟨hnil, hqueue⟩ := not_or.mp hput
          refine (allOrNothing_source_enqueue hwf hk (not_not.mp hnil) ?_ ?_).mpr ?_
          · exact Bool.not_eq_false _ ▸ hqueue
          · exact fun _ => trivial
          · exact Script.still_done _ _
    | some d =>
      have hname := given_ne_nil hdst
      have hg : ∀ a : SourceLookup × Bool, (archiveScript d a.1 a.2).Rising weight :=
        fun a => rising_archiveScript d a.1 a.2
      simp only [Option.isSome_some, AtOnce]
      cases hk : db.sourceOf s.fileName with
      | none =>
        rw [allOrNothing_source_new hwf hk hg]
        simp
      | some k =>
        simp only [Option.some.injEq, exists_eq_left']
        by_cases hnil : db.statuses k = []
        · rw [allOrNothing_source_enqueue hwf hk hnil (Bool.or_true queue) hg, if_pos hnil]
          exact still_archive_enqueue hwf hname hk
        · rw [allOrNothing_source_known hwf hk (Or.inl hnil), if_neg hnil]
          simp only [ne_eq, hnil, not_false_eq_true, decide_true]
          exact allOrNothing_archive hwf hname (sourceOf_ne_zero hk)

/-- An update changes nothing exactly if the rows are what it makes them. -/
theorem updateQueue_eq_self {id : Nat} {set : QueueRow → QueueRow} :
    db.updateQueue id set = db ↔ ∀ q ∈ db.queue, q.id = id → set q = q := by
  have hqueue : db.updateQueue id set = db ↔
      db.queue.map (fun q => if q.id = id then set q else q) = db.queue.map fun q => q := by
    rw [List.map_id']
    constructor
    · exact fun h => congrArg Store.queue h
    · exact fun h => congrArg (fun queue => { db with queue := queue }) h
  rw [hqueue, List.map_inj_left]
  refine forall_congr' fun q => imp_congr_right fun _ => ?_
  by_cases hid : q.id = id
  · simp only [hid, if_true, forall_const]
  · simp only [hid, if_false, false_imp_iff]

/-- The rows of the file say already what is to be recorded. -/
def Recorded (db : Store) (file : EncodedFile) : Prop :=
  ∀ q ∈ db.queue, q.id = file.originalFileId →
    q.status = file.result.toInt ∧ q.comment = comment file

theorem allOrNothing_addEncodedFile (db : Store) (file : EncodedFile) :
    (addEncodedFileScript file).AllOrNothing db ↔
      file.fileLength = 0 ∨ db.archives.HasKey file.originalFileId ∨ db.Recorded file := by
  unfold addEncodedFileScript
  split
  · rename_i hpos
    have hrecorded : db.updateQueue file.originalFileId (fun q =>
        { q with status := file.result.toInt, comment := comment file }) = db ↔ db.Recorded file := by
      rw [updateQueue_eq_self]
      refine forall_congr' fun q => imp_congr_right fun _ => imp_congr_right fun _ => ?_
      obtain ⟨id, status, count, comm⟩ := q
      simp [eq_comm]
    rw [Script.allOrNothing_two, hrecorded, insertArchive_eq_self, archives_updateQueue]
    have hne : file.fileLength ≠ 0 := UInt64.pos_iff_ne_zero.mp hpos
    simp only [hne, false_or, or_comm]
  · rename_i hzero
    exact iff_of_true (Script.allOrNothing_one db) (Or.inl (by simpa [UInt64.pos_iff_ne_zero] using hzero))

end Store

end MediaArchiver
