/-
# MediaArchiver.Store.Rediscovery -- a report that was made before changes nothing

The watcher reports what it finds, each time the daemon starts and once for every folder in which a file
is found. A report is absorbed (`Absorbs`) if the tables say already what it would add: the second look-up
finds what the first call wrote, and takes another branch. Every call leaves tables that absorb it
(`absorbs_report`), a report that is absorbed changes nothing (`report_of_absorbs`), and no other report
undoes that (`Absorbs.grows`): reports only ever add rows and set them to done (`Grows`).

This needs the tables to be in order. An archive that is recorded for an id that nobody catalogued is given
a queue row, and the source that gets the id later a second one.
-/
import Mathlib.Data.List.Induction
import MediaArchiver.Store.Reports
import MediaArchiver.Store.Runs

namespace MediaArchiver

open Lib (Machine AlongPast Table)

namespace Store

/-- The rows of an id are done, without a comment. -/
def Finished (db : Store) (k : Nat) : Prop :=
  ∀ q ∈ db.queue, q.id = k → q.status = 5 ∧ q.comment = none

/-- The report has nothing to add, and answers the id. -/
def Absorbs (db : Store) : Option BasicFileInfo → Option BasicFileInfo → Bool → Nat → Prop
  | none, none, _, id => id = 0
  | none, some dst, _, id =>
      (db.archiveOf dst.fileName = none ∧ id = 0) ∨
        (db.archiveOf dst.fileName = some id ∧ db.Done id)
  | some src, none, queue, id =>
      db.sourceOf src.fileName = some id ∧ (queue = true → db.statuses id ≠ [])
  | some src, some dst, _, id =>
      ∃ k, db.sourceOf src.fileName = some k ∧ db.statuses k ≠ [] ∧
        ((db.archives.find? k = some dst.fileName ∧ id = k) ∨
          (db.archives.find? k ≠ some dst.fileName ∧
            ((db.archiveOf dst.fileName = some id ∧ db.Done id) ∨
              (db.archiveOf dst.fileName = none ∧ db.archives.HasKey k ∧ db.Finished k ∧ id = k))))

variable {db db' : Store}

/-! ## Moves that do nothing -/

theorem settle_of_done {k : Nat} (h : db.Done k) : db.settle k = db := if_pos h

theorem finish_of_finished {k : Nat} (h : db.Finished k) : db.finish k = db := by
  have hsame : db.queue.map (fun q => if q.id = k then { q with status := 5, comment := none } else q)
      = db.queue := by
    refine (List.map_congr_left fun q hq => ?_).trans (List.map_id db.queue)
    split
    · rename_i hid
      obtain ⟨hst, hcomment⟩ := h q hq hid
      cases q
      cases hst
      cases hcomment
      rfl
    · rfl
  exact congrArg (fun queue => { db with queue := queue }) hsame

theorem insertArchive_of_hasKey {k : Nat} (h : db.archives.HasKey k) (path : Path) :
    db.insertArchive k path = db := by
  have hsame : db.archives.insertNew k path = db.archives := if_pos (db.archives.isSome_find?.mpr h)
  exact congrArg (fun archives => { db with archives := archives }) hsame

/-- What is absorbed changes nothing. -/
theorem report_of_absorbs {src dst : Option BasicFileInfo} {queue : Bool} {id : Nat}
    (h : db.Absorbs src dst queue id) : db.report src dst queue = (db, id) := by
  cases src with
  | none =>
    cases dst with
    | none =>
      obtain rfl : id = 0 := h
      rfl
    | some d =>
      rcases h with ⟨hnone, rfl⟩ | ⟨hm, hdone⟩
      · simp only [report, hnone]
      · simp only [report, hm, settle_of_done hdone]
  | some s =>
    cases dst with
    | none =>
      obtain ⟨hk, hqueued⟩ := h
      simp only [report, enter_of_known hk]
      cases queue with
      | false => rfl
      | true => simp only [if_true, enqueue_of_queued (hqueued rfl)]
    | some d =>
      obtain ⟨k, hk, hqueued, hcase⟩ := h
      simp only [report, enter_of_known hk, enqueue_of_queued hqueued]
      rcases hcase with ⟨hname, rfl⟩ | ⟨hname, ⟨hm, hdone⟩ | ⟨hnone, hkey, hfin, rfl⟩⟩
      · rw [if_pos hname]
      · simp only [if_neg hname, hm, settle_of_done hdone]
      · simp only [if_neg hname, hnone, attach, insertArchive_of_hasKey hkey, finish_of_finished hfin]

/-! ## What reports leave alone -/

/-- Whatever one store knows, the other knows, and what is new about archives is settled. -/
structure Grows (db db' : Store) : Prop where
  sources : ∀ {path k}, db.sourceOf path = some k → db'.sourceOf path = some k
  names : ∀ {k path}, db.archives.find? k = some path → db'.archives.find? k = some path
  archived : ∀ {path m}, db.archiveOf path = some m → db'.archiveOf path = some m
  added : ∀ {path}, db.archiveOf path = none →
    db'.archiveOf path = none ∨ ∃ m, db'.archiveOf path = some m ∧ db'.Done m
  queued : ∀ {k}, db.statuses k ≠ [] → db'.statuses k ≠ []
  done : ∀ {k}, db.Done k → db'.Done k
  finished : ∀ {k}, db.statuses k ≠ [] → db.Finished k → db'.Finished k

theorem grows_refl (db : Store) : Grows db db :=
  ⟨fun h => h, fun h => h, fun h => h, fun h => Or.inl h, fun h => h, fun h => h, fun _ h => h⟩

theorem Grows.trans {db'' : Store} (h : Grows db db') (h' : Grows db' db'') : Grows db db'' where
  sources hk := h'.sources (h.sources hk)
  names hk := h'.names (h.names hk)
  archived hm := h'.archived (h.archived hm)
  added hnone := by
    rcases h.added hnone with hnone' | ⟨m, hm, hdone⟩
    · exact h'.added hnone'
    · exact Or.inr ⟨m, h'.archived hm, h'.done hdone⟩
  queued hq := h'.queued (h.queued hq)
  done hd := h'.done (h.done hd)
  finished hq hf := h'.finished (h.queued hq) (h.finished hq hf)

/-- A change of the queue alone. -/
theorem Grows.of_queue (hsrc : db'.sourcefiles = db.sourcefiles) (harch : db'.archives = db.archives)
    (hqueued : ∀ k, db.statuses k ≠ [] → db'.statuses k ≠ []) (hdone : ∀ k, db.Done k → db'.Done k)
    (hfin : ∀ k, db.statuses k ≠ [] → db.Finished k → db'.Finished k) : Grows db db' where
  sources h := by
    unfold sourceOf at h ⊢
    rw [hsrc]
    exact h
  names h := by rw [harch]; exact h
  archived h := by
    unfold archiveOf at h ⊢
    rw [harch]
    exact h
  added h := by
    left
    unfold archiveOf at h ⊢
    rw [harch]
    exact h
  queued := hqueued _
  done := hdone _
  finished := hfin _

theorem grows_enqueue (db : Store) (k : Nat) (status : Int) : Grows db (db.enqueue k status) := by
  by_cases hnil : db.statuses k = []
  · have hst : ∀ id, db.statuses id ≠ [] → (db.enqueue k status).statuses id = db.statuses id := by
      intro id hne
      rw [statuses_enqueue, if_neg]
      rintro ⟨rfl, -⟩
      exact hne hnil
    apply Grows.of_queue (sourcefiles_enqueue k status) (archives_enqueue k status)
    · intro id hne
      rw [hst id hne]
      exact hne
    · rintro id ⟨st, hmem, hle⟩
      refine ⟨st, ?_, hle⟩
      rw [hst id (List.ne_nil_of_mem hmem)]
      exact hmem
    · intro id hne hfin q hq hid
      unfold enqueue at hq
      rw [if_pos hnil] at hq
      rcases List.mem_append.mp hq with hold | hnew
      · exact hfin q hold hid
      · obtain rfl := List.mem_singleton.mp hnew
        obtain rfl : k = id := hid
        exact absurd hnil hne
  · rw [enqueue_of_queued hnil]
    exact grows_refl db

theorem finished_finish (db : Store) (k : Nat) : (db.finish k).Finished k := by
  intro q hq hid
  obtain ⟨r, -, rfl⟩ := List.mem_map.mp hq
  split
  · exact ⟨rfl, rfl⟩
  · rename_i hr
    rw [if_neg hr] at hid
    exact absurd hid hr

theorem done_finish {k : Nat} (h : db.statuses k ≠ []) : (db.finish k).Done k := by
  obtain ⟨status, hmem⟩ := List.exists_mem_of_ne_nil _ h
  refine ⟨5, ?_, le_refl 5⟩
  rw [statuses_finish, if_pos rfl]
  exact List.mem_map.mpr ⟨status, hmem, rfl⟩

theorem statuses_finish_ne_nil {k id : Nat} (h : db.statuses id ≠ []) :
    (db.finish k).statuses id ≠ [] := by
  rw [statuses_finish]
  split
  · rename_i hid
    rw [hid] at h
    simpa using h
  · exact h

theorem grows_finish (db : Store) (k : Nat) : Grows db (db.finish k) := by
  have hsrc : (db.finish k).sourcefiles = db.sourcefiles := rfl
  have harch : (db.finish k).archives = db.archives := rfl
  apply Grows.of_queue hsrc harch
  · intro id hne
    exact statuses_finish_ne_nil hne
  · intro id hdone
    by_cases hid : id = k
    · obtain ⟨st, hmem, -⟩ := hdone
      subst hid
      exact done_finish (List.ne_nil_of_mem hmem)
    · unfold Done
      rw [statuses_finish, if_neg hid]
      exact hdone
  · intro id _ hfin q hq hid
    obtain ⟨r, hr, rfl⟩ := List.mem_map.mp hq
    split
    · exact ⟨rfl, rfl⟩
    · rename_i hrk
      rw [if_neg hrk] at hid
      exact hfin r hr hid

theorem grows_settle (db : Store) (k : Nat) : Grows db (db.settle k) := by
  unfold settle
  split
  · exact grows_refl db
  · exact (grows_enqueue db k 5).trans (grows_finish _ k)

theorem queued_enqueue (db : Store) (k : Nat) (status : Int) : (db.enqueue k status).statuses k ≠ [] := by
  rw [statuses_enqueue]
  split
  · exact List.cons_ne_nil _ _
  · rename_i h
    exact fun hnil => h ⟨rfl, hnil⟩

/-- What `settle` is for. -/
theorem done_settle (db : Store) (k : Nat) : (db.settle k).Done k := by
  unfold settle
  split
  · assumption
  · exact done_finish (queued_enqueue db k 5)

@[simp] theorem archives_settle (db : Store) (k : Nat) : (db.settle k).archives = db.archives := by
  unfold settle
  split
  · rfl
  · exact archives_enqueue k 5

theorem grows_enter (db : Store) (src : BasicFileInfo) : Grows db (db.enter src).1 := by
  unfold enter
  split
  · exact grows_refl db
  · refine ⟨?_, fun h => h, fun h => h, fun h => Or.inl h, fun h => h, fun h => h, fun _ h => h⟩
    intro path k hk
    unfold sourceOf at hk ⊢
    obtain ⟨row, hrow, rfl⟩ := Option.map_eq_some_iff.mp hk
    show Option.map Prod.fst (List.find? _ (db.sourcefiles.rows ++ [_])) = _
    rw [List.find?_append, hrow]
    rfl

/-- A source is known once it was entered. -/
theorem sourceOf_enter (db : Store) (src : BasicFileInfo) :
    (db.enter src).1.sourceOf src.fileName = some (db.enter src).2 := by
  cases hk : db.sourceOf src.fileName with
  | some k =>
    rw [enter_of_known hk]
    exact hk
  | none =>
    have hnone : db.sourcefiles.rows.find? (fun s => s.2.path = src.fileName) = none :=
      Option.map_eq_none_iff.mp hk
    unfold enter
    rw [hk]
    show Option.map Prod.fst (List.find? _ (db.sourcefiles.rows ++ [_])) = _
    rw [List.find?_append, hnone]
    simp

/-! ## A new archive -/

/-- The rows after an archive was inserted: the new one, if the id had none, and the old ones. -/
theorem mem_insertArchive {k : Nat} {path : Path} {a : Nat × Path} :
    a ∈ (db.insertArchive k path).archives.rows ↔
      a ∈ db.archives.rows ∨ (¬ db.archives.HasKey k ∧ a = (k, path)) := by
  obtain ⟨id, p⟩ := a
  rw [← Table.find?_eq_some, ← Table.find?_eq_some]
  show (db.archives.insertNew k path).find? id = some p ↔ _
  rw [Table.find?_insertNew]
  by_cases hkey : db.archives.HasKey k
  · obtain ⟨old, hold⟩ := Option.isSome_iff_exists.mp (db.archives.isSome_find?.mpr hkey)
    by_cases hid : id = k
    · simp [hid, hold, hkey]
    · simp [hid, hkey]
  · have hnone := db.archives.find?_eq_none.mpr hkey
    by_cases hid : id = k
    · simp [hid, hnone, hkey, eq_comm]
    · simp [hid]

/-- An archive of a queued id, under a name that is not known. -/
theorem grows_attach {k : Nat} {path : Path} (hnew : db.archiveOf path = none)
    (hq : db.statuses k ≠ []) : Grows db (db.attach k path) := by
  have hrows : ∀ a, a ∈ (db.attach k path).archives.rows ↔
      a ∈ db.archives.rows ∨ (¬ db.archives.HasKey k ∧ a = (k, path)) := fun a => mem_insertArchive
  have hfinish := grows_finish (db.insertArchive k path) k
  have hother : ∀ id p, p ≠ path →
      ((id, p) ∈ (db.attach k path).archives.rows ↔ (id, p) ∈ db.archives.rows) := by
    intro id p hp
    rw [hrows]
    constructor
    · rintro (hold | ⟨-, heq⟩)
      · exact hold
      · exact absurd (Prod.mk.inj heq).2 hp
    · exact Or.inl
  refine ⟨hfinish.sources, ?_, ?_, ?_, hfinish.queued, hfinish.done, hfinish.finished⟩
  · intro id p hp
    rw [Table.find?_eq_some] at hp ⊢
    exact (hrows _).mpr (Or.inl hp)
  · intro p m hm
    have hp : p ≠ path := by
      rintro rfl
      rw [hnew] at hm
      cases hm
    rw [archiveOf_eq_some] at hm ⊢
    simpa only [hother _ p hp] using hm
  · intro p hnone
    by_cases hp : p = path
    · subst hp
      by_cases hkey : db.archives.HasKey k
      · left
        rw [attach, insertArchive_of_hasKey hkey]
        exact hnone
      · refine Or.inr ⟨k, archiveOf_eq_some.mpr ⟨(hrows _).mpr (Or.inr ⟨hkey, rfl⟩), ?_⟩, ?_⟩
        · intro id hid
          rcases (hrows _).mp hid with hold | ⟨-, heq⟩
          · exact absurd ⟨_, hold, rfl⟩ (archiveOf_eq_none.mp hnone)
          · exact Nat.le_of_eq (Prod.mk.inj heq).1
        · exact done_finish hq
    · left
      rw [archiveOf_eq_none] at hnone ⊢
      rintro ⟨⟨id, _⟩, hmem, rfl⟩
      exact hnone ⟨_, (hother id _ hp).mp hmem, rfl⟩

/-! ## Reports and the tables they leave -/

theorem grows_report (db : Store) (src dst : Option BasicFileInfo) (queue : Bool) :
    Grows db (db.report src dst queue).1 := by
  cases src with
  | none =>
    cases dst with
    | none => exact grows_refl db
    | some d =>
      simp only [report]
      cases db.archiveOf d.fileName with
      | none => exact grows_refl db
      | some m => exact grows_settle db m
  | some s =>
    have henter := grows_enter db s
    cases dst with
    | none =>
      simp only [report]
      cases queue with
      | false => exact henter
      | true => exact henter.trans (grows_enqueue _ _ 0)
    | some d =>
      have hmid := henter.trans (grows_enqueue _ (db.enter s).2 5)
      simp only [report]
      split
      · exact hmid
      split
      · rename_i hnone
        exact hmid.trans (grows_attach hnone (queued_enqueue _ _ _))
      · exact hmid.trans (grows_settle _ _)

/-- The tables after a report absorb it, with the same answer. -/
theorem absorbs_report (db : Store) (src dst : Option BasicFileInfo) (queue : Bool) :
    (db.report src dst queue).1.Absorbs src dst queue (db.report src dst queue).2 := by
  cases src with
  | none =>
    cases dst with
    | none => rfl
    | some d =>
      simp only [report]
      cases hm : db.archiveOf d.fileName with
      | none => exact Or.inl ⟨hm, rfl⟩
      | some m => exact Or.inr ⟨(grows_settle db m).archived hm, done_settle db m⟩
  | some s =>
    have henter := sourceOf_enter db s
    cases dst with
    | none =>
      simp only [report]
      cases queue with
      | false => exact ⟨henter, fun h => absurd h (by decide)⟩
      | true => exact ⟨(grows_enqueue _ _ 0).sources henter, fun _ => queued_enqueue _ _ _⟩
    | some d =>
      have hsource := (grows_enqueue _ (db.enter s).2 5).sources henter
      have hqueued := queued_enqueue (db.enter s).1 (db.enter s).2 5
      simp only [report]
      generalize (db.enter s).1.enqueue (db.enter s).2 5 = mid at hsource hqueued ⊢
      generalize (db.enter s).2 = k at hsource hqueued ⊢
      by_cases hname : mid.archives.find? k = some d.fileName
      · rw [if_pos hname]
        exact ⟨k, hsource, hqueued, Or.inl ⟨hname, rfl⟩⟩
      rw [if_neg hname]
      cases hm : mid.archiveOf d.fileName with
      | none =>
        have hgrows := grows_attach hm hqueued
        refine ⟨k, hgrows.sources hsource, hgrows.queued hqueued, ?_⟩
        by_cases hkey : mid.archives.HasKey k
        · -- the id keeps the archive it has
          refine Or.inr ?_
          simp only [attach, insertArchive_of_hasKey hkey]
          exact ⟨hname, Or.inr ⟨hm, hkey, finished_finish mid k, trivial⟩⟩
        · exact Or.inl ⟨(Table.find?_eq_some _).mpr (mem_insertArchive.mpr (Or.inr ⟨hkey, rfl⟩)), rfl⟩
      | some m =>
        have hgrows := grows_settle mid m
        refine ⟨k, hgrows.sources hsource, hgrows.queued hqueued, Or.inr ⟨?_, Or.inl ?_⟩⟩
        · simpa only [archives_settle] using hname
        · exact ⟨hgrows.archived hm, done_settle mid m⟩

/-- What was absorbed once is absorbed from then on. The answer may change: an archive that nobody knew
can be given a source by another report. -/
theorem Absorbs.grows {src dst : Option BasicFileInfo} {queue : Bool} {id : Nat}
    (h : db.Absorbs src dst queue id) (hgrows : Grows db db') : ∃ id', db'.Absorbs src dst queue id' := by
  have hknown : ∀ {path : Path}, db.archiveOf path = none →
      db'.archiveOf path = none ∨ ∃ m, db'.archiveOf path = some m ∧ db'.Done m := hgrows.added
  cases src with
  | none =>
    cases dst with
    | none => exact ⟨0, rfl⟩
    | some d =>
      rcases h with ⟨hnone, -⟩ | ⟨hm, hdone⟩
      · rcases hknown hnone with hnone' | ⟨m, hm, hdone⟩
        · exact ⟨0, Or.inl ⟨hnone', rfl⟩⟩
        · exact ⟨m, Or.inr ⟨hm, hdone⟩⟩
      · exact ⟨id, Or.inr ⟨hgrows.archived hm, hgrows.done hdone⟩⟩
  | some s =>
    cases dst with
    | none => exact ⟨id, hgrows.sources h.1, fun hqueue => hgrows.queued (h.2 hqueue)⟩
    | some d =>
      obtain ⟨k, hk, hqueued, hcase⟩ := h
      have hk' := hgrows.sources hk
      have hqueued' := hgrows.queued hqueued
      by_cases hname' : db'.archives.find? k = some d.fileName
      · exact ⟨k, k, hk', hqueued', Or.inl ⟨hname', rfl⟩⟩
      rcases hcase with ⟨hname, -⟩ | ⟨-, ⟨hm, hdone⟩ | ⟨hnone, hkey, hfin, -⟩⟩
      · exact absurd (hgrows.names hname) hname'
      · exact ⟨id, k, hk', hqueued', Or.inr ⟨hname', Or.inl ⟨hgrows.archived hm, hgrows.done hdone⟩⟩⟩
      · rcases hknown hnone with hnone' | ⟨m, hm, hdone⟩
        · obtain ⟨name, hfind⟩ := Option.isSome_iff_exists.mp (db.archives.isSome_find?.mpr hkey)
          have hkey' : db'.archives.HasKey k := ⟨name, (Table.find?_eq_some _).mp (hgrows.names hfind)⟩
          exact ⟨k, k, hk', hqueued', Or.inr ⟨hname',
            Or.inr ⟨hnone', hkey', hgrows.finished hqueued hfin, rfl⟩⟩⟩
        · exact ⟨m, k, hk', hqueued', Or.inr ⟨hname', Or.inl ⟨hm, hdone⟩⟩⟩

/-! ## The same calls again -/

/-- A call of `addFile`. -/
structure ReportCall where
  src : Option BasicFileInfo
  dst : Option BasicFileInfo
  queue : Bool

/-- The call that a report is. -/
def ReportCall.call (r : ReportCall) : StoreCall := .addFile r.src r.dst r.queue

theorem wellFormed_reports (h : db.WellFormed) (reports : List ReportCall) :
    (machine.run db (reports.map ReportCall.call)).WellFormed := by
  rw [← machine.run_comap]
  exact (machine.comap ReportCall.call).invariant_always (P := fun db => db.WellFormed)
    (fun db r hdb => wellFormed_addFile hdb r.src r.dst r.queue) h reports

/-- Reports that are all absorbed change nothing. -/
theorem run_of_absorbs (h : db.WellFormed) {reports : List ReportCall}
    (habs : ∀ r ∈ reports, ∃ id, db.Absorbs (given r.src) (given r.dst) r.queue id) :
    machine.run db (reports.map ReportCall.call) = db := by
  induction reports with
  | nil => rfl
  | cons r rs ih =>
    obtain ⟨id, hid⟩ := habs r List.mem_cons_self
    have hstep : (db.addFile r.src r.dst r.queue).1 = db := by
      rw [addFile_eq h, report_of_absorbs hid]
    rw [List.map_cons, machine.run_cons]
    show machine.run (db.addFile r.src r.dst r.queue).1 _ = db
    rw [hstep]
    exact ih fun r' hr' => habs r' (List.mem_cons_of_mem _ hr')

/-- A report that was made is absorbed by the tables after all of them. -/
theorem absorbs_run (h : db.WellFormed) {reports : List ReportCall} {r : ReportCall}
    (hr : r ∈ reports) :
    ∃ id, (machine.run db (reports.map ReportCall.call)).Absorbs (given r.src) (given r.dst) r.queue id := by
  induction reports using List.reverseRecOn with
  | nil => exact absurd hr List.not_mem_nil
  | append_singleton reports last ih =>
    have hwf := wellFormed_reports h reports
    have hstep : machine.run db ((reports ++ [last]).map ReportCall.call) =
        ((machine.run db (reports.map ReportCall.call)).report (given last.src) (given last.dst)
          last.queue).1 := by
      rw [← addFile_eq hwf, List.map_append, machine.run_append]
      rfl
    rw [hstep]
    rcases List.mem_append.mp hr with hold | hnew
    · obtain ⟨id, hid⟩ := ih hold
      exact hid.grows (grows_report ..)
    · obtain rfl := List.mem_singleton.mp hnew
      exact ⟨_, absorbs_report ..⟩

/-- In every reachable database a call of `addFile` made twice in a row does what it does once, with the
same answer; and reports made again, in any number and order, change nothing. -/
theorem addFile_idempotent {calls : List StoreCall} (h : AlongPast RecordsReturned [] calls) :
    (∀ src dst queue, ((machine.run empty calls).addFile src dst queue).1.addFile src dst queue
      = (machine.run empty calls).addFile src dst queue) ∧
    ∀ reports again : List ReportCall, (∀ r ∈ again, r ∈ reports) →
      machine.run (machine.run empty calls) ((reports ++ again).map ReportCall.call)
        = machine.run (machine.run empty calls) (reports.map ReportCall.call) := by
  have hwf := wellFormed_run h
  constructor
  · intro src dst queue
    have habs := absorbs_report (machine.run empty calls) (given src) (given dst) queue
    rw [← addFile_eq hwf] at habs
    rw [addFile_eq (wellFormed_addFile hwf src dst queue), report_of_absorbs habs]
  · intro reports again hagain
    rw [List.map_append, machine.run_append]
    exact run_of_absorbs (wellFormed_reports hwf reports) fun r hr => absorbs_run hwf (hagain r hr)

/-- A source whose archive is known for another source, after that one was handed out and recorded. -/
theorem addFile_idempotent_shared_archive :
    let db := machine.run empty
      [.addFile (some ⟨"a.mov".toList, 7⟩) none true, .getNextFile .first ⟨[], 0⟩,
       .addEncodedFile ⟨⟨5, 4, []⟩, 1, "a_archived.mp4".toList⟩]
    (db.addFile (some ⟨"a.avi".toList, 9⟩) (some ⟨"a_archived.mp4".toList, 4⟩) true).1.addFile
        (some ⟨"a.avi".toList, 9⟩) (some ⟨"a_archived.mp4".toList, 4⟩) true
      = db.addFile (some ⟨"a.avi".toList, 9⟩) (some ⟨"a_archived.mp4".toList, 4⟩) true :=
  (addFile_idempotent (by decide)).1 _ _ _

end Store

end MediaArchiver
