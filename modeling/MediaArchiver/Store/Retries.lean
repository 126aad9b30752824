/-
# MediaArchiver.Store.Retries -- how often one file can be handed out

The queue counts how often a file was handed out, in two places of `getNextFile` (the first row of an
unqueued file is inserted with 1, a row that is there is counted up), and looks at the count in one of
its three arms only, that of the failed files. A file that says "not started" is handed out whatever its
count. Hence the bound: three times, and once more for each time that somebody set the status back to
"not started" (`StoreCall.Renews`).

The invariant `Metered` keeps the count equal to what happened. It holds in every run, even if results
are recorded for ids nobody was given. The second half of `retries_bounded`, that a final result stays
final, does not: an id that is not catalogued yet gets a second row when it is (`final_forgotten`).
-/
import MediaArchiver.Store.Runs

namespace MediaArchiver

open Lib (Machine)

namespace StoreCall

/-- The call sets the status of the id to not started. -/
def Renews (id : Nat) : StoreCall → Prop
  | .addEncodedFile file =>
      file.originalFileId = id ∧ file.result = EncodingResult.notStarted.value
  | .reset srcFileId => srcFileId = id
  | _ => False

instance (id : Nat) : DecidablePred (Renews id)
  | .addEncodedFile _ => inferInstanceAs (Decidable (_ ∧ _))
  | .reset srcFileId => inferInstanceAs (Decidable (srcFileId = id))
  | .getNextFile .. | .addFile .. => inferInstanceAs (Decidable False)

end StoreCall

namespace Store

variable {db db' : Store} {id : Nat}

/-! ## What happens to the counts -/

/-- No call can have returned the id: it has no queue row, or no catalogue row. -/
def Unseen (db : Store) (id : Nat) : Prop := db.statuses id = [] ∨ ¬ db.sourcefiles.HasKey id

theorem queue_updateQueue (db : Store) (id : Nat) (set : QueueRow → QueueRow) :
    (db.updateQueue id set).queue = db.queue.map fun q => if q.id = id then set q else q := rfl

/-- An update that does not touch ids and counts. -/
theorem mem_queue_updateQueue {id : Nat} {set : QueueRow → QueueRow} (hid : ∀ q, (set q).id = q.id)
    (hcount : ∀ q, (set q).count = q.count) {q : QueueRow}
    (hq : q ∈ (db.updateQueue id set).queue) :
    ∃ r ∈ db.queue, r.id = q.id ∧ r.count = q.count := by
  rw [queue_updateQueue] at hq
  obtain ⟨r, hr, rfl⟩ := List.mem_map.mp hq
  refine ⟨r, hr, ?_⟩
  split
  · exact ⟨(hid r).symm, (hcount r).symm⟩
  · exact ⟨rfl, rfl⟩

theorem mem_queue_insertQueue {row q : QueueRow} :
    q ∈ (db.insertQueue row).queue ↔ q ∈ db.queue ∨ q = row := by
  unfold insertQueue
  rw [List.mem_append, List.mem_singleton]

/-- The source part of `addFile` adds at most one row, for an id that was not seen. -/
theorem mem_queue_addSource (src : BasicFileInfo) (dstGiven queue : Bool) {q : QueueRow}
    (hq : q ∈ (db.addSource src dstGiven queue).1.queue) :
    q ∈ db.queue ∨ (q.count = 0 ∧ db.Unseen q.id) := by
  unfold addSource catalogue at hq
  rcases db.lookupSource_cases src.fileName with ⟨hl, -⟩ | ⟨file, hfile, -, hqueued⟩
  · rw [hl] at hq
    simp only [if_true, Bool.not_false, Bool.true_and] at hq
    split at hq
    · rcases mem_queue_insertQueue.mp hq with hq | rfl
      · exact Or.inl hq
      · refine Or.inr ⟨rfl, Or.inr ?_⟩
        rintro ⟨file, hmem⟩
        exact db.sourcefiles.nextKey_ne hmem rfl
    · exact Or.inl hq
  · have hne : (db.lookupSource src.fileName).srcId ≠ 0 :=
      Nat.ne_of_gt (db.sourcefiles.key_pos _ hfile)
    rw [if_neg hne] at hq
    simp only at hq
    split at hq
    · rename_i hput
      rcases mem_queue_insertQueue.mp hq with hq | rfl
      · exact Or.inl hq
      · refine Or.inr ⟨rfl, Or.inl ?_⟩
        by_contra hrows
        rw [hqueued.mpr hrows] at hput
        cases hput
    · exact Or.inl hq

/-- The archive part adds at most one row, for an id that had none. -/
theorem mem_queue_addArchive (dst : BasicFileInfo) (l : SourceLookup) (putToQueue : Bool)
    (hl : l.srcId ≠ 0 → l.inQueue = true) {q : QueueRow}
    (hq : q ∈ (db.addArchive dst l putToQueue).1.queue) :
    (∃ r ∈ db.queue, r.id = q.id ∧ r.count = q.count) ∨ (q.count = 0 ∧ db.statuses q.id = []) := by
  unfold addArchive at hq
  split at hq
  · exact Or.inl ⟨q, hq, rfl, rfl⟩
  rcases db.lookupArchive_cases dst.fileName ⟨false, l.srcId, l.inQueue, putToQueue⟩ with
    ⟨ha, -⟩ | ⟨k, ptq, -, ha⟩
  · rw [ha] at hq
    by_cases hid : l.srcId = 0
    · simp only [hid, if_true] at hq
      exact Or.inl ⟨q, hq, rfl, rfl⟩
    · simp only [if_neg hid, hl hid, Bool.not_true, Bool.false_eq_true, if_false] at hq
      split at hq
      · refine Or.inl (mem_queue_updateQueue ?_ ?_ hq) <;> exact fun _ => rfl
      · exact Or.inl ⟨q, hq, rfl, rfl⟩
  · rw [ha] at hq
    by_cases hid : k = 0
    · simp only [hid, if_true] at hq
      exact Or.inl ⟨q, hq, rfl, rfl⟩
    · simp only [if_neg hid, if_true] at hq
      by_cases hnil : db.statuses k = []
      · simp only [hnil, ne_eq, not_true_eq_false, decide_false, Bool.not_false, if_true] at hq
        rcases mem_queue_insertQueue.mp hq with hq | rfl
        · exact Or.inl ⟨q, hq, rfl, rfl⟩
        · exact Or.inr ⟨rfl, hnil⟩
      · simp only [ne_eq, hnil, not_false_eq_true, decide_true, Bool.not_true, Bool.false_eq_true,
          if_false] at hq
        split at hq
        · refine Or.inl (mem_queue_updateQueue ?_ ?_ hq) <;> exact fun _ => rfl
        · exact Or.inl ⟨q, hq, rfl, rfl⟩

/-- `addFile` adds rows with a count of zero only, for ids that were not seen. -/
theorem mem_queue_addFile (src dst : Option BasicFileInfo) (queue : Bool) {q : QueueRow}
    (hq : q ∈ (db.addFile src dst queue).1.queue) :
    (∃ r ∈ db.queue, r.id = q.id ∧ r.count = q.count) ∨ (q.count = 0 ∧ db.Unseen q.id) := by
  unfold addFile at hq
  cases hsrc : given src with
  | none =>
    rw [hsrc] at hq
    cases hdst : given dst with
    | none =>
      rw [hdst] at hq
      exact Or.inl ⟨q, hq, rfl, rfl⟩
    | some d =>
      rw [hdst] at hq
      rcases mem_queue_addArchive d _ false (fun h => absurd rfl h) hq with h | ⟨hzero, hnil⟩
      · exact Or.inl h
      · exact Or.inr ⟨hzero, Or.inl hnil⟩
  | some s =>
    rw [hsrc] at hq
    have hspec := addSource_spec db s (given dst).isSome queue
    have hmid : ∀ r ∈ (db.addSource s (given dst).isSome queue).1.queue,
        (∃ r' ∈ db.queue, r'.id = r.id ∧ r'.count = r.count) ∨ (r.count = 0 ∧ db.Unseen r.id) := by
      intro r hr
      rcases mem_queue_addSource s _ queue hr with hr | hnew
      · exact Or.inl ⟨r, hr, rfl, rfl⟩
      · exact Or.inr hnew
    cases hdst : given dst with
    | none =>
      rw [hdst] at hq hmid
      exact hmid q hq
    | some d =>
      rw [hdst] at hq hmid hspec
      obtain ⟨mid, hmidEq⟩ : ∃ mid, (db.addSource s true queue).1 = mid := ⟨_, rfl⟩
      have harchive : (∃ r ∈ mid.queue, r.id = q.id ∧ r.count = q.count) ∨
          (q.count = 0 ∧ mid.statuses q.id = []) :=
        hmidEq ▸ mem_queue_addArchive d _ _ (fun _ => hspec.queued rfl) hq
      rcases harchive with ⟨r, hr, hid, hcount⟩ | ⟨hzero, hnil⟩
      · rw [← hid, ← hcount]
        exact hmid r (hmidEq ▸ hr)
      · -- the source part takes no row away
        refine Or.inr ⟨hzero, Or.inl ?_⟩
        rw [← hmidEq] at hnil
        rcases hspec.statuses q.id with hsame | ⟨_, hadd, _⟩
        · exact hsame.symm.trans hnil
        · exact absurd (hadd.symm.trans hnil)
            (List.append_ne_nil_of_right_ne_nil _ (List.cons_ne_nil _ _))

/-- Which files `getNextFile` returns, and how it counts them. -/
theorem getNextFile_counts {limit : LimitOne} {filter : MediaFileRequirements} {file : BasicFileInfo}
    (h : db.getNextFile limit filter = (db', some (id, file))) :
    (db.statuses id = [] ∨ 0 ∈ db.statuses id ∨ ∃ q ∈ db.queue, q.id = id ∧ q.count < 3) ∧
      ((db.statuses id = [] ∧ db'.queue = db.queue ++ [⟨id, 1, 1, none⟩]) ∨
        (db.statuses id ≠ [] ∧ db'.queue = db.queue.map fun q =>
          if q.id = id then { q with status := 1, count := q.count + 1 } else q)) := by
  unfold getNextFile at h
  cases hkeep : limit.keep (db.candidates filter) with
  | none =>
    rw [hkeep] at h
    cases h
  | some r =>
    obtain ⟨id', row⟩ := r
    rw [hkeep] at h
    obtain ⟨rfl, hfound⟩ := Prod.mk.inj h
    obtain ⟨rfl, -⟩ := Prod.mk.inj (Option.some.inj hfound)
    refine ⟨?_, ?_⟩
    · have hmem := limit.keep_mem hkeep
      simp only [candidates, List.mem_append, List.mem_filter] at hmem
      rcases hmem with (⟨-, hq⟩ | ⟨-, hq⟩) | ⟨-, hq⟩
      · obtain ⟨q, hq, hid, hst⟩ := queued_iff.mp hq
        exact Or.inr (Or.inl (mem_statuses.mpr ⟨q, hq, hid, by simpa using hst⟩))
      · left
        by_contra hne
        rw [queued_any_iff.mpr hne] at hq
        cases hq
      · obtain ⟨q, hq, hid, hst⟩ := queued_iff.mp hq
        have hst : q.status < 0 ∧ -99 ≤ q.status ∧ q.count < 3 := by simpa using hst
        exact Or.inr (Or.inr ⟨q, hq, hid, hst.2.2⟩)
    · by_cases hq : db.queued id' (fun _ => true) = true
      · right
        rw [if_pos hq]
        exact ⟨queued_any_iff.mp hq, rfl⟩
      · left
        rw [if_neg hq]
        refine ⟨?_, rfl⟩
        by_contra hne
        exact hq (queued_any_iff.mpr hne)

/-! ## What no call takes away -/

theorem statuses_step_ne_nil (call : StoreCall) (h : db.statuses id ≠ []) :
    (machine.step db call).statuses id ≠ [] := by
  cases call with
  | getNextFile limit filter =>
    show (db.getNextFile limit filter).1.statuses id ≠ []
    rcases db.getNextFile_cases limit filter with hnone | ⟨db', id', file, hsome, hres⟩
    · rw [hnone]
      exact h
    · rw [hsome]
      by_cases hid : id = id'
      · rw [hid]
        exact hres.queued
      · rw [hres.others id hid]
        exact h
  | addFile src dst queue =>
    apply addFile_keeps (P := fun db => db.statuses id ≠ []) h
    · intro s dstGiven mid l hs
      rcases hs.statuses id with hsame | ⟨_, hadd, _⟩
      · rw [hsame]
        exact h
      · rw [hadd]
        exact List.append_ne_nil_of_right_ne_nil _ (List.cons_ne_nil _ _)
    · intro mid d l db' hd hmid
      rcases hd.statuses id with hsame | ⟨_, hset | ⟨_, hset⟩⟩
      · rw [hsame]
        exact hmid
      · rw [hset]
        exact fun hnil => hmid (List.map_eq_nil_iff.mp hnil)
      · rw [hset]
        exact List.cons_ne_nil _ _
  | addEncodedFile file =>
    show (db.addEncodedFile file).statuses id ≠ []
    rw [statuses_addEncodedFile]
    split
    · exact fun hnil => h (List.map_eq_nil_iff.mp hnil)
    · exact h
  | reset srcFileId =>
    show (db.reset srcFileId).statuses id ≠ []
    rw [statuses_reset]
    split
    · exact fun hnil => h (List.map_eq_nil_iff.mp hnil)
    · exact h

theorem Unseen.of_step {call : StoreCall} (h : (machine.step db call).Unseen id) : db.Unseen id := by
  rcases h with hnil | hcat
  · left
    by_contra hne
    exact statuses_step_ne_nil call hne hnil
  · right
    intro hkey
    exact hcat (db.hasKey_step call hkey)

/-! ## The invariant -/

/-- The id was returned `given` times and set back `renewed` times. -/
structure Metered (id given renewed : Nat) (db : Store) : Prop where
  bound : given ≤ 3 + renewed
  ready : 0 ∈ db.statuses id → given ≤ 2 + renewed
  unseen : db.Unseen id → given = 0
  counts : ∀ q ∈ db.queue, q.id = id → q.count = given

theorem metered_empty (id : Nat) : Metered id 0 0 empty where
  bound := Nat.zero_le _
  ready := fun _ => Nat.zero_le _
  unseen := fun _ => rfl
  counts := fun _ hq => absurd hq List.not_mem_nil

/-- A call that returns the id uses up one of its chances. -/
theorem Metered.returned {given renewed : Nat} (h : Metered id given renewed db) {limit : LimitOne}
    {filter : MediaFileRequirements} {file : BasicFileInfo}
    (hget : db.getNextFile limit filter = (db', some (id, file))) :
    Metered id (given + 1) renewed db' := by
  have hres := reserves_of_getNextFile hget
  obtain ⟨hwhy, hqueue⟩ := getNextFile_counts hget
  refine ⟨?_, ?_, ?_, ?_⟩
  · rcases hwhy with hnil | hzero | ⟨q, hq, hid, hcount⟩
    · have hgiven := h.unseen (Or.inl hnil)
      omega
    · have hready := h.ready hzero
      omega
    · have hgiven := h.counts q hq hid
      omega
  · intro hzero
    exact absurd (hres.started 0 hzero) (by decide)
  · rintro (hnil | hcat)
    · exact absurd hnil hres.queued
    · rw [hres.sourcefiles] at hcat
      exact absurd ⟨_, hres.catalogued⟩ hcat
  · intro q hq hid
    rcases hqueue with ⟨hnil, heq⟩ | ⟨_, heq⟩
    · rw [heq] at hq
      rcases List.mem_append.mp hq with hold | hnew
      · exact absurd hid (statuses_eq_nil.mp hnil q hold)
      · rw [List.mem_singleton.mp hnew, h.unseen (Or.inl hnil)]
    · rw [heq] at hq
      obtain ⟨q₀, hq₀, rfl⟩ := List.mem_map.mp hq
      by_cases hid₀ : q₀.id = id
      · rw [if_pos hid₀]
        show q₀.count + 1 = given + 1
        rw [h.counts q₀ hq₀ hid₀]
      · rw [if_neg hid₀] at hid
        exact absurd hid hid₀

/-- Another call counts nothing, and makes the id ready only if it is new or is renewed. -/
theorem Metered.keep {given renewed renewed' : Nat} (h : Metered id given renewed db)
    (hle : renewed ≤ renewed')
    (hready : 0 ∈ db'.statuses id → 0 ∈ db.statuses id ∨ db.Unseen id ∨ renewed < renewed')
    (hunseen : db'.Unseen id → db.Unseen id)
    (hcounts : ∀ q ∈ db'.queue, q.id = id →
      (∃ r ∈ db.queue, r.id = id ∧ r.count = q.count) ∨ (q.count = 0 ∧ db.Unseen id)) :
    Metered id given renewed' db' := by
  have hbound := h.bound
  refine ⟨by omega, ?_, fun hnew => h.unseen (hunseen hnew), ?_⟩
  · intro hzero
    rcases hready hzero with hbefore | hnew | hlt
    · have hle := h.ready hbefore
      omega
    · have hgiven := h.unseen hnew
      omega
    · omega
  · intro q hq hid
    rcases hcounts q hq hid with ⟨r, hr, hrid, hcount⟩ | ⟨hzero, hnew⟩
    · rw [← hcount]
      exact h.counts r hr hrid
    · rw [hzero, h.unseen hnew]

/-- `addFile` writes "not started" for ids only that were not seen. -/
theorem zero_addFile (src dst : Option BasicFileInfo) (queue : Bool)
    (hzero : 0 ∈ (db.addFile src dst queue).1.statuses id) : 0 ∈ db.statuses id ∨ db.Unseen id := by
  obtain ⟨mid, l, hs, hd⟩ := db.addFile_parts src dst queue
  have hmid : 0 ∈ mid.statuses id → 0 ∈ db.statuses id ∨ db.Unseen id := by
    intro h
    rcases hs with ⟨_, rfl, _⟩ | ⟨s, _, hs⟩
    · exact Or.inl h
    · rcases hs.statuses id with hsame | ⟨_, _, hnil | hnew⟩
      · exact Or.inl (hsame ▸ h)
      · exact Or.inr (Or.inl hnil)
      · refine Or.inr (Or.inr ?_)
        rintro ⟨file, hmem⟩
        exact db.sourcefiles.nextKey_ne hmem hnew
  rcases hd with ⟨_, heq⟩ | ⟨d, _, hd⟩
  · exact hmid (heq ▸ hzero)
  · rcases hd.statuses id with hsame | ⟨_, hset | ⟨_, hset⟩⟩
    · exact hmid (hsame ▸ hzero)
    · rw [hset] at hzero
      obtain ⟨_, _, hfive⟩ := List.mem_map.mp hzero
      exact absurd hfive (by decide)
    · rw [hset] at hzero
      exact absurd (List.mem_singleton.mp hzero) (by decide)

theorem Metered.getNextFile {given renewed : Nat} (h : Metered id given renewed db)
    (limit : LimitOne) (filter : MediaFileRequirements) :
    Metered id (given + if (db.getNextFile limit filter).2.map Prod.fst = some id then 1 else 0)
      renewed (db.getNextFile limit filter).1 := by
  rcases db.getNextFile_cases limit filter with hnone | ⟨db', id', file, hsome, hres⟩
  · rw [hnone]
    exact h
  · rw [hsome]
    show Metered id (given + if some id' = some id then 1 else 0) renewed db'
    by_cases hid : id' = id
    · rw [if_pos (congrArg some hid)]
      rw [hid] at hsome
      exact h.returned hsome
    · rw [if_neg fun heq => hid (Option.some.inj heq)]
      have hst := hres.others id (Ne.symm hid)
      refine h.keep (Nat.le_refl _) (fun hzero => Or.inl (hst ▸ hzero)) ?_ ?_
      · rw [Unseen, hst, hres.sourcefiles]
        exact fun hnew => hnew
      · intro q hq hqid
        left
        rcases (getNextFile_counts hsome).2 with ⟨_, heq⟩ | ⟨_, heq⟩
        · rw [heq] at hq
          rcases List.mem_append.mp hq with hold | hnew
          · exact ⟨q, hold, hqid, rfl⟩
          · rw [List.mem_singleton.mp hnew] at hqid
            exact absurd hqid hid
        · rw [heq] at hq
          obtain ⟨q₀, hq₀, rfl⟩ := List.mem_map.mp hq
          by_cases hid₀ : q₀.id = id'
          · rw [if_pos hid₀] at hqid
            exact absurd (hid₀.symm.trans hqid) hid
          · rw [if_neg hid₀] at hqid ⊢
            exact ⟨q₀, hq₀, hqid, rfl⟩

theorem Metered.step {given renewed : Nat} (h : Metered id given renewed db) (call : StoreCall) :
    Metered id (given + if db.returned call = some id then 1 else 0)
      (renewed + if call.Renews id then 1 else 0) (machine.step db call) := by
  have hunseen : (machine.step db call).Unseen id → db.Unseen id := Unseen.of_step
  cases call with
  | getNextFile limit filter => exact h.getNextFile limit filter
  | addFile src dst queue =>
    refine h.keep (Nat.le_refl _) ?_ hunseen ?_
    · intro hzero
      rcases zero_addFile src dst queue hzero with hbefore | hnew
      · exact Or.inl hbefore
      · exact Or.inr (Or.inl hnew)
    · rintro q hq rfl
      exact mem_queue_addFile src dst queue hq
  | addEncodedFile file =>
    refine h.keep (Nat.le_add_right _ _) ?_ hunseen ?_
    · intro (hzero : 0 ∈ (db.addEncodedFile file).statuses id)
      rw [statuses_addEncodedFile] at hzero
      by_cases hid : id = file.originalFileId
      · rw [if_pos hid] at hzero
        obtain ⟨_, _, hresult⟩ := List.mem_map.mp hzero
        have hrenews : StoreCall.Renews id (.addEncodedFile file) :=
          ⟨hid.symm, Int8.toInt_inj.mp hresult⟩
        rw [if_pos hrenews]
        exact Or.inr (Or.inr (Nat.lt_succ_self _))
      · rw [if_neg hid] at hzero
        exact Or.inl hzero
    · intro q (hq : q ∈ (db.addEncodedFile file).queue) hqid
      left
      rw [← hqid]
      unfold addEncodedFile at hq
      split at hq <;> (refine mem_queue_updateQueue ?_ ?_ hq <;> exact fun _ => rfl)
  | reset srcFileId =>
    refine h.keep (Nat.le_add_right _ _) ?_ hunseen ?_
    · intro (hzero : 0 ∈ (db.reset srcFileId).statuses id)
      rw [statuses_reset] at hzero
      by_cases hid : id = srcFileId
      · rw [if_pos (show StoreCall.Renews id (.reset srcFileId) from hid.symm)]
        exact Or.inr (Or.inr (Nat.lt_succ_self _))
      · rw [if_neg hid] at hzero
        exact Or.inl hzero
    · intro q hq hqid
      left
      rw [← hqid]
      refine mem_queue_updateQueue ?_ ?_ hq <;> exact fun _ => rfl

/-- In every run the counts are what happened. -/
theorem metered_run (id : Nat) (calls : List StoreCall) :
    Metered id ((handedOut calls).count id) (calls.countP fun call => call.Renews id)
      (machine.run empty calls) := by
  refine machine.invariant_past (P := fun calls db =>
    Metered id ((handedOut calls).count id) (calls.countP fun call => call.Renews id) db)
    ?_ (metered_empty id) (Lib.alongPast_true [] calls)
  intro past call h _
  have hgiven : (handedOut (past ++ [call])).count id = (handedOut past).count id
      + if (machine.run empty past).returned call = some id then 1 else 0 := by
    rw [handedOut, machine.outputs_concat, List.count_append]
    cases (machine.run empty past).returned call with
    | none => rfl
    | some id' => simp [handedOut, List.count_singleton]
  have hrenewed : (past ++ [call]).countP (fun call => call.Renews id)
      = past.countP (fun call => call.Renews id) + if call.Renews id then 1 else 0 := by
    rw [List.countP_append, List.countP_singleton]
    simp
  rw [hgiven, hrenewed]
  exact h.step call

/-! ## Final results -/

/-- The file is catalogued and queued, and no status it has is ever offered. -/
structure Final (db : Store) (id : Nat) : Prop where
  catalogued : db.sourcefiles.HasKey id
  queued : db.statuses id ≠ []
  final : ∀ status ∈ db.statuses id, status ≤ -100 ∨ 1 ≤ status

theorem Final.not_offerable (h : db.Final id) : ¬ Offerable (db.statuses id) := by
  rintro (hnil | ⟨status, hmem, hst⟩)
  · exact h.queued hnil
  · have hfinal := h.final status hmem
    omega

theorem Final.step (h : db.Final id) {call : StoreCall} (hrel : ¬ call.Releases id) :
    (machine.step db call).Final id := by
  refine ⟨db.hasKey_step call h.catalogued, statuses_step_ne_nil call h.queued, ?_⟩
  intro status hst
  rcases statuses_step h.catalogued h.queued h.not_offerable call hrel with hsame | hset
  · rw [hsame] at hst
    exact h.final status hst
  · rw [hset] at hst
    obtain ⟨_, _, rfl⟩ := List.mem_map.mp hst
    exact Or.inr (by decide)

/-- Recording a final result for a file that is catalogued and queued. -/
theorem final_addEncodedFile {file : EncodedFile} (hcat : db.sourcefiles.HasKey file.originalFileId)
    (hq : db.statuses file.originalFileId ≠ [])
    (hresult : file.result.toInt ≤ -100 ∨ 1 ≤ file.result.toInt) :
    (db.addEncodedFile file).Final file.originalFileId := by
  refine ⟨db.hasKey_step (.addEncodedFile file) hcat, ?_, ?_⟩
  · exact statuses_step_ne_nil (.addEncodedFile file) hq
  · intro status hst
    rw [statuses_addEncodedFile, if_pos rfl] at hst
    obtain ⟨_, _, rfl⟩ := List.mem_map.mp hst
    exact hresult

/-- In every run an id is returned three times at most, and once more for each call that sets it back;
and after a final result was recorded for an id that is catalogued and queued, as every id is that was
returned, it is not returned before it is reset or another result is recorded for it. -/
theorem retries_bounded (id : Nat) :
    (∀ calls, (handedOut calls).count id ≤ 3 + calls.countP fun call => call.Renews id) ∧
    (∀ calls, id ∈ handedOut calls → (machine.run empty calls).sourcefiles.HasKey id
      ∧ (machine.run empty calls).statuses id ≠ []) ∧
    ∀ before file after, file.originalFileId = id →
      (machine.run empty before).sourcefiles.HasKey id →
      (machine.run empty before).statuses id ≠ [] →
      (file.result.toInt ≤ -100 ∨ 1 ≤ file.result.toInt) →
      (∀ call ∈ after, ¬ StoreCall.Releases id call) → ∀ limit filter,
      ((machine.run empty (before ++ .addEncodedFile file :: after)).getNextFile limit filter).2.map
        Prod.fst ≠ some id := by
  refine ⟨fun calls => (metered_run id calls).bound, ?_, ?_⟩
  · intro calls hid
    have hgiven := (metered_run id calls).unseen
    have hpos : 0 < (handedOut calls).count id := List.count_pos_iff.mpr hid
    refine ⟨hasKey_handedOut hid, fun hnil => ?_⟩
    have hzero := hgiven (Or.inl hnil)
    omega
  · rintro before file after rfl hcat hq hresult hafter limit filter
    rw [machine.run_append, machine.run_cons]
    have hfinal : (machine.run ((machine.run empty before).addEncodedFile file) after).Final
        file.originalFileId :=
      machine.invariant (P := fun db => db.Final file.originalFileId)
        (fun db call h hrel => h.step hrel) (final_addEncodedFile hcat hq hresult)
        (machine.along_of_forall hafter _)
    exact not_returned_of_not_offerable hfinal.not_offerable limit filter

/-- A source fails for good after it was handed out once, and the watcher finds an archive of it. -/
theorem retries_bounded_failure :
    let calls : List StoreCall := [.addFile (some ⟨"a.mov".toList, 7⟩) none true,
      .getNextFile .first ⟨[], 0⟩, .addEncodedFile ⟨⟨-100, 0, []⟩, 1, []⟩,
      .addFile (some ⟨"a.mov".toList, 7⟩) (some ⟨"a_archived.mp4".toList, 3⟩) true]
    (handedOut calls).count 1 = 1
      ∧ ((machine.run empty calls).getNextFile .first ⟨[], 0⟩).2.map Prod.fst ≠ some 1 :=
  ⟨by decide, (retries_bounded 1).2.2
    [.addFile (some ⟨"a.mov".toList, 7⟩) none true, .getNextFile .first ⟨[], 0⟩]
    ⟨⟨-100, 0, []⟩, 1, []⟩ [.addFile (some ⟨"a.mov".toList, 7⟩) (some ⟨"a_archived.mp4".toList, 3⟩) true]
    rfl (by decide) (by decide) (by decide) (by decide) .first ⟨[], 0⟩⟩

/-- Results are recorded for an id that is not catalogued yet, and its archive is reported. The last
result is a final one, and its row says so. Then the id is catalogued, and returned. -/
theorem final_forgotten :
    let before : List StoreCall := [.addEncodedFile ⟨⟨5, 3, []⟩, 1, "b.mp4".toList⟩,
      .addFile none (some ⟨"b.mp4".toList, 3⟩) false]
    let file : EncodedFile := ⟨⟨-100, 0, []⟩, 1, []⟩
    let after : List StoreCall := [.addFile (some ⟨"a.mov".toList, 7⟩) none true]
    file.result.toInt ≤ -100
      ∧ (machine.run empty (before ++ [.addEncodedFile file])).statuses 1 = [-100]
      ∧ (∀ call ∈ after, ¬ StoreCall.Releases 1 call)
      ∧ ((machine.run empty (before ++ .addEncodedFile file :: after)).getNextFile .first
          ⟨[], 0⟩).2.map Prod.fst = some 1 := by
  decide

end Store

end MediaArchiver
