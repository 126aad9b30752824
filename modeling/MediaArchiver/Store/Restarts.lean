/-
# MediaArchiver.Store.Restarts -- the database over many lives of the daemon

The daemon is started, makes calls, is killed and started again, any number of times, and each time it may be
killed anywhere: between the statements that make the tables, in the middle of a call, or while it is idle. A
start that gets to its end finds the tables or makes them; it never fails. And the rows are those that the
calls of all lives would leave one after the other without any restart (`restarts_keep_rows`), so what the
other modules say about runs of calls, of which some are cut, is about the database over all lives.
-/
import MediaArchiver.Store.Crashes
import MediaArchiver.Store.Setup

namespace MediaArchiver

open Lib (Machine AlongPast Connection)

/-- The file, and whether the daemon runs. -/
structure Life where
  file : DatabaseFile
  running : Bool

/-- The daemon starts and connects, makes a call, or is killed. Start and call may be cut after some
statements. -/
inductive LifeEvent where
  | start (cut : Option Nat)
  | call (call : StoreCall) (cut : Option Nat)
  | kill

namespace Life

/-- The start of the daemon: `main` calls `connect`, and lets the tables be made. -/
def start (f : DatabaseFile) : Option Nat → Life
  | none =>
      match Database.connect .working true (.closed f) with
      | (db, .returned _) => ⟨db.connection.stored, true⟩
      | (db, _) => ⟨db.connection.stored, false⟩
  | some n =>
      if f.isDBInitialized then ⟨f, false⟩
      else
        ⟨((⟨f, none⟩ : Connection DatabaseFile).execAll (DatabaseFile.setupStatements.take n)).1.stored,
          false⟩

def step (s : Life) : LifeEvent → Life
  | .start cut => if s.running then s else start s.file cut
  | .call call cut =>
      if s.running then ⟨{ s.file with tables := Store.crashing.step s.file.tables (call, cut) }, cut.isNone⟩
      else s
  | .kill => { s with running := false }

def machine : Machine Life LifeEvent := ⟨step⟩

/-- The call that is made. -/
def made (s : Life) : LifeEvent → Option (StoreCall × Option Nat)
  | .call call cut => if s.running then some (call, cut) else none
  | .start _ | .kill => none

variable {f₀ : DatabaseFile} {s : Life} {calls : List (StoreCall × Option Nat)}

/-- The tables were not made yet, or they hold what the calls put there. -/
inductive Carries (f₀ : DatabaseFile) : Life → List (StoreCall × Option Nat) → Prop where
  | before : Carries f₀ ⟨f₀, false⟩ []
  | after {s : Life} {calls : List (StoreCall × Option Nat)} (hasTables : s.file.HasTables)
      (kept : ∀ o ∈ f₀.objects, o ∈ s.file.objects)
      (rows : s.file.tables = Store.crashing.run .empty calls) : Carries f₀ s calls

/-- A start that is not cut succeeds, and a start changes nothing but that the tables are made. -/
theorem start_cases (f : DatabaseFile) (hready : f.HasTables ∨ f.Free) (cut : Option Nat) :
    (start f cut).running = cut.isNone ∧
      ((start f cut).file = f ∧ (cut = none → f.HasTables) ∨
        ¬ f.HasTables ∧ f.SetUp (start f cut).file) := by
  cases cut with
  | none =>
    have hconnects := Database.connect_connects f .working true
    unfold start
    generalize Database.connect .working true (.closed f) = ended at hconnects
    cases hconnects with
    | found _ _ htables => exact ⟨rfl, Or.inl ⟨rfl, fun _ => htables⟩⟩
    | made _ _ htables _ _ hsetup => exact ⟨rfl, Or.inr ⟨htables, hsetup⟩⟩
    | notMade _ _ htables _ hfails =>
      -- nothing fails by itself
      exact absurd (hready.resolve_left htables) (hfails.resolve_right nofun)
    | notOpened hopen => cases hopen
    | notRead _ hselect => cases hselect
    | missing _ _ _ hcreate => cases hcreate
  | some n =>
    have hstart : start f (some n) = if f.isDBInitialized then ⟨f, false⟩ else
        ⟨((⟨f, none⟩ : Connection DatabaseFile).execAll (DatabaseFile.setupStatements.take n)).1.stored,
          false⟩ := rfl
    rw [hstart]
    split
    · exact ⟨rfl, Or.inl ⟨rfl, nofun⟩⟩
    · next hmissing =>
      refine ⟨rfl, ?_⟩
      have htables : ¬ f.HasTables := by rwa [← f.isDBInitialized_iff]
      rcases Connection.stored_transaction f DatabaseFile.creations n with hsame | ⟨f', hok, -, hall⟩
      · exact Or.inl ⟨hsame, nofun⟩
      · rcases f.changeAll_creations with ⟨-, f'', hok', hsetup⟩ | ⟨-, e, herror⟩
        · rw [hok] at hok'
          cases hok'
          refine Or.inr ⟨htables, ?_⟩
          show f.SetUp (Connection.execAll _ (DatabaseFile.setupStatements.take n)).1.stored
          rw [DatabaseFile.setupStatements, hall]
          exact hsetup
        · rw [hok] at herror
          cases herror

/-- A start keeps the rows, wherever it is cut. -/
theorem carries_start (hfree : f₀.Free) (h : Carries f₀ s calls) (cut : Option Nat) :
    Carries f₀ (start s.file cut) calls := by
  cases h with
  | before =>
    obtain ⟨hrunning, ⟨hfile, htables⟩ | ⟨-, hsetup⟩⟩ := start_cases f₀ (Or.inr hfree) cut
    · -- a start that makes no tables was cut
      cases cut with
      | none => exact absurd (htables rfl) (DatabaseFile.not_hasTables_of_free hfree)
      | some n =>
        have hsame : start f₀ (some n) = ⟨f₀, false⟩ := by
          generalize start f₀ (some n) = started at hrunning hfile
          obtain ⟨file, running⟩ := started
          cases hfile
          cases hrunning
          rfl
        show Carries f₀ (start f₀ (some n)) []
        rw [hsame]
        exact .before
    · exact .after hsetup.hasTables hsetup.kept hsetup.tables
  | after hasTables kept rows =>
    obtain ⟨-, ⟨hfile, -⟩ | ⟨hmissing, -⟩⟩ := start_cases s.file (Or.inl hasTables) cut
    · exact .after (by rwa [hfile]) (by rwa [hfile]) (by rwa [hfile])
    · exact absurd hasTables hmissing

theorem carries_step (hfree : f₀.Free) (h : Carries f₀ s calls) (e : LifeEvent) :
    Carries f₀ (step s e) (calls ++ (s.made e).toList) := by
  cases e with
  | start cut =>
    show Carries f₀ (if s.running then s else start s.file cut) (calls ++ [])
    rw [List.append_nil]
    split
    · exact h
    · exact carries_start hfree h cut
  | kill =>
    show Carries f₀ { s with running := false } (calls ++ [])
    rw [List.append_nil]
    cases h with
    | before => exact .before
    | after hasTables kept rows => exact .after hasTables kept rows
  | call call cut =>
    cases h with
    | before => exact .before
    | after hasTables kept rows =>
      cases hrun : s.running with
      | false =>
        have hidle : step s (.call call cut) = s ∧ s.made (.call call cut) = none := by
          simp [step, made, hrun]
        rw [hidle.1, hidle.2, Option.toList_none, List.append_nil]
        exact .after hasTables kept rows
      | true =>
        have hcall : step s (.call call cut) =
              ⟨{ s.file with tables := Store.crashing.step s.file.tables (call, cut) }, cut.isNone⟩ ∧
            s.made (.call call cut) = some (call, cut) := by
          simp [step, made, hrun]
        rw [hcall.1, hcall.2, Option.toList_some]
        refine .after hasTables kept ?_
        rw [Machine.run_append, ← rows]
        rfl

theorem carries_run (hfree : f₀.Free) (es : List LifeEvent) :
    Carries f₀ (machine.run ⟨f₀, false⟩ es) (machine.outputs made ⟨f₀, false⟩ es) := by
  apply machine.invariant_past (P := fun past s => Carries f₀ s (machine.outputs made ⟨f₀, false⟩ past)) _
    .before (Lib.alongPast_true [] es)
  intro past e hpast _
  rw [Machine.outputs_concat]
  exact carries_step hfree hpast e

/-- Over all lives of the daemon, from a file in which nothing stands in the way of the tables, wherever the
daemon is killed: either nothing was made yet and no call, or the tables are there beside what else was in the
file, and their rows are those that the calls leave without any restart. They are in order if results are
recorded only for ids that were handed out. And where the daemon does not run, a start succeeds if it is not
cut, and keeps the rows, cut or not. -/
theorem restarts_keep_rows (f₀ : DatabaseFile) (hfree : f₀.Free) (es : List LifeEvent) :
    let s := machine.run ⟨f₀, false⟩ es
    let calls := machine.outputs made ⟨f₀, false⟩ es
    Carries f₀ s calls ∧
      (AlongPast Store.RecordsAnswered [] calls → s.file.HasTables → s.file.tables.WellFormed) ∧
      (s.running = false → (step s (.start none)).running = true ∧
        ∀ cut, s.file.HasTables → (step s (.start cut)).file = s.file) := by
  intro s calls
  have hcarries : Carries f₀ s calls := carries_run hfree es
  clear_value s calls
  have hready : s.file.HasTables ∨ s.file.Free := by
    cases hcarries with
    | before => exact Or.inr hfree
    | after hasTables kept rows => exact Or.inl hasTables
  refine ⟨hcarries, fun hrecords htables => ?_, fun hidle => ?_⟩
  · cases hcarries with
    | before => exact absurd htables (DatabaseFile.not_hasTables_of_free hfree)
    | after hasTables kept rows =>
      rw [rows]
      exact Store.wellFormed_crashing hrecords
  · have hstart : ∀ cut, step s (.start cut) = start s.file cut := by
      intro cut
      rw [step, hidle, if_neg Bool.false_ne_true]
    refine ⟨?_, fun cut htables => ?_⟩
    · rw [hstart]
      exact (start_cases s.file hready none).1
    · rw [hstart]
      rcases (start_cases s.file hready cut).2 with ⟨hfile, -⟩ | ⟨hmissing, -⟩
      · exact hfile
      · exact absurd htables hmissing

/-- The daemon is killed while it makes the tables, makes them when it is started again, is killed in a call,
and goes on. -/
theorem restarts_keep_rows_new :
    let es : List LifeEvent := [.start (some 3), .start none,
      .call (.addFile (some ⟨"a.mov".toList, 7⟩) none true) (some 2), .start none,
      .call (.addFile (some ⟨"a.mov".toList, 7⟩) none true) none, .kill]
    let s := machine.run ⟨.new, false⟩ es
    let calls := machine.outputs made ⟨.new, false⟩ es
    Carries .new s calls ∧
      (AlongPast Store.RecordsAnswered [] calls → s.file.HasTables → s.file.tables.WellFormed) ∧
      (s.running = false → (step s (.start none)).running = true ∧
        ∀ cut, s.file.HasTables → (step s (.start cut)).file = s.file) :=
  restarts_keep_rows .new (by decide) _

end Life

end MediaArchiver
