/-
# MediaArchiver.Store.Setup -- the database file: looking for the tables, and making them

`connect` opens the file, asks the schema for the three tables, and makes them if they are not all there. It
makes them in one transaction, and a program that ends in the middle leaves what was stored before. It counts
the tables by their exact names, but SQL does not tell names apart by case, and a table cannot have the name
of a view or an index either. So there are files in which not all tables are found and yet one of them cannot
be made. The error then leaves the destructor that executes the statements, which ends the program, and the
file stays as it was (`connect_returned_iff`). So it does if the file cannot be read, or the disk is full.
-/
import Mathlib.Data.List.Perm.Subperm
import MediaArchiver.Lib.Transactions
import MediaArchiver.Daemon.SqlErrors

namespace MediaArchiver

open Lib (Action Completion Connection Statement StatementError)

/-! ## The schema -/

inductive ObjectType where
  | table
  | index
  | view
  | trigger
deriving DecidableEq

/-- A row of `sqlite_master`. -/
structure SchemaObject where
  type : ObjectType
  name : Text
deriving DecidableEq

/-- Names of SQL do not differ by case. -/
def sameName (a b : Text) : Bool := a.map Char.toLower = b.map Char.toLower

namespace SchemaObject

/-- The object stands in the way of a table of this name. -/
def occupies (o : SchemaObject) (name : Text) : Bool := o.type ≠ .trigger && sameName o.name name

/-- The second object may be there beside the first one. -/
def Apart (a b : SchemaObject) : Prop := b.type ≠ .trigger → a.occupies b.name = false

end SchemaObject

/-- A file with the objects of its schema, and the rows of the three tables as far as they are there. No two
tables, views or indexes have the same name. -/
structure DatabaseFile where
  objects : List SchemaObject
  tables : Store
  distinct : objects.Pairwise SchemaObject.Apart

namespace DatabaseFile

/-- No table can have the name if this does not hold. -/
def free (f : DatabaseFile) (name : Text) : Bool := f.objects.all fun o => !o.occupies name

theorem free_iff {f : DatabaseFile} {name : Text} :
    f.free name = true ↔ ∀ o ∈ f.objects, o.occupies name = false := by
  simp only [free, List.all_eq_true, Bool.not_eq_true']

theorem distinct_append {f : DatabaseFile} {name : Text} (h : f.free name = true) :
    (f.objects ++ [SchemaObject.mk .table name]).Pairwise SchemaObject.Apart := by
  refine List.pairwise_append.mpr ⟨f.distinct, List.pairwise_singleton _ _, fun a ha b hb _ => ?_⟩
  obtain rfl := List.mem_singleton.mp hb
  exact free_iff.mp h a ha

/-- A table more, if its name is free. -/
def withTable (f : DatabaseFile) (name : Text) : DatabaseFile :=
  if h : f.free name = true then ⟨f.objects ++ [⟨.table, name⟩], f.tables, distinct_append h⟩ else f

/-- `sqlite_sequence`, where the ids of `AUTOINCREMENT` are counted. -/
def sequence : Text := "sqlite_sequence".toList

/-- `CREATE TABLE`, with what it makes of the rows. -/
def createTable (name : Text) (autoincrement : Bool) (rows : Store → Store) (f : DatabaseFile) :
    Except Text DatabaseFile :=
  if f.objects.any fun o => (o.type = .table || o.type = .view) && sameName o.name name then
    .error ("table ".toList ++ name ++ " already exists".toList)
  else if f.objects.any fun o => o.type = .index && sameName o.name name then
    .error ("there is already an index named ".toList ++ name)
  else
    let made := f.withTable name
    let made := if autoincrement then made.withTable sequence else made
    .ok { made with tables := rows made.tables }

/-- The file before anything is made in it. -/
def new : DatabaseFile := ⟨[], .empty, .nil⟩

/-! ## isDBInitialized -/

def sourcefiles : Text := "sourcefiles".toList
def archives : Text := "archives".toList
def queue : Text := "queue".toList

def tableNames : List Text := [sourcefiles, archives, queue]

/-- `name NOT LIKE 'sqlite_%'`. The underscore stands for any character. -/
def notLikeSqlite (name : Text) : Bool :=
  !((name.take 6).map Char.toLower = "sqlite".toList && 7 ≤ name.length)

/-- `SELECT name FROM sqlite_master WHERE type = 'table' AND name NOT LIKE 'sqlite_%'` -/
def tableRows (f : DatabaseFile) : List Text :=
  (f.objects.filter fun o => o.type = .table && notLikeSqlite o.name).map SchemaObject.name

/-- The callback counts the names it knows. -/
def isDBInitialized (f : DatabaseFile) : Bool :=
  f.tableRows.foldl (fun tables name => if tableNames.contains name then tables + 1 else tables) 0 = 3

/-- All three tables are there, under their exact names. -/
def HasTables (f : DatabaseFile) : Prop := ∀ name ∈ tableNames, ⟨.table, name⟩ ∈ f.objects

instance (f : DatabaseFile) : Decidable f.HasTables := inferInstanceAs (Decidable (∀ _ ∈ _, _))

theorem mem_tableRows {f : DatabaseFile} {name : Text} (hname : name ∈ tableNames) :
    name ∈ f.tableRows ↔ ⟨.table, name⟩ ∈ f.objects := by
  have hlike : notLikeSqlite name = true := by
    revert name
    decide
  simp only [tableRows, List.mem_map, List.mem_filter, Bool.and_eq_true, decide_eq_true_eq]
  constructor
  · rintro ⟨⟨type, made⟩, ⟨hmem, rfl, -⟩, rfl⟩
    exact hmem
  · exact fun hmem => ⟨_, ⟨hmem, rfl, hlike⟩, rfl⟩

theorem nodup_tableRows (f : DatabaseFile) : f.tableRows.Nodup := by
  refine List.Pairwise.map _ (R := fun a b => a.type = .table ∧ b.type = .table ∧ a.Apart b) ?_ ?_
  · rintro a b ⟨ha, hb, hapart⟩ hname
    have hfree := hapart (by rw [hb]; exact nofun)
    rw [SchemaObject.occupies, ha, hname, sameName] at hfree
    simp at hfree
  · refine List.Pairwise.imp_of_mem ?_ (f.distinct.filter _)
    intro a b ha hb hapart
    have htable : ∀ o ∈ f.objects.filter fun o => o.type = .table && notLikeSqlite o.name, o.type = .table := by
      intro o ho
      exact of_decide_eq_true (Bool.and_eq_true_iff.mp (List.mem_filter.mp ho).2).1
    exact ⟨htable a ha, htable b hb, hapart⟩

theorem foldl_count (names rows : List Text) (n : Nat) :
    rows.foldl (fun tables name => if names.contains name then tables + 1 else tables) n
      = n + (rows.filter names.contains).length := by
  induction rows generalizing n with
  | nil => rfl
  | cons name rows ih =>
    rw [List.foldl_cons, ih, List.filter_cons]
    split
    · rw [List.length_cons]
      omega
    · rfl

/-- The count is three exactly if all tables are there: no row counts twice. -/
theorem isDBInitialized_iff (f : DatabaseFile) : f.isDBInitialized = true ↔ f.HasTables := by
  have hnodup : (f.tableRows.filter tableNames.contains).Nodup := f.nodup_tableRows.filter _
  have hsub : f.tableRows.filter tableNames.contains ⊆ tableNames := by
    intro name hname
    simpa using (List.mem_filter.mp hname).2
  have hperm := hnodup.subperm hsub
  rw [isDBInitialized, decide_eq_true_eq, foldl_count, Nat.zero_add]
  constructor
  · intro hcount name hname
    have hall := hperm.perm_of_length_le (Nat.le_of_eq hcount.symm)
    exact (mem_tableRows hname).mp (List.mem_filter.mp (hall.mem_iff.mpr hname)).1
  · intro hall
    have hsup : tableNames ⊆ f.tableRows.filter tableNames.contains := by
      intro name hname
      exact List.mem_filter.mpr ⟨(mem_tableRows hname).mpr (hall name hname), by simpa using hname⟩
    have hnames : tableNames.Nodup := by decide
    exact Nat.le_antisymm hperm.length_le (hnames.subperm hsup).length_le

/-! ## setupTables -/

/-- The tables that are made. A new table has no rows. -/
def creations : List (DatabaseFile → Except Text DatabaseFile) :=
  [createTable sourcefiles true fun db => { db with sourcefiles := .empty },
    createTable archives false fun db => { db with archives := .empty },
    createTable queue false fun db => { db with queue := [] }]

/-- `BEGIN TRANSACTION; CREATE TABLE ...; COMMIT;` -/
def setupStatements : List (Statement DatabaseFile Text) := Connection.transaction creations

/-- Nothing stands in the way of the tables. -/
def Free (f : DatabaseFile) : Prop := ∀ name ∈ tableNames, f.free name = true

instance (f : DatabaseFile) : Decidable f.Free := inferInstanceAs (Decidable (∀ _ ∈ _, _))

theorem not_hasTables_of_free {f : DatabaseFile} (h : f.Free) : ¬ f.HasTables := by
  intro htables
  have hfree := free_iff.mp (h sourcefiles (by decide)) _ (htables sourcefiles (by decide))
  exact absurd hfree (by decide)

@[simp] theorem tables_withTable (f : DatabaseFile) (name : Text) : (f.withTable name).tables = f.tables := by
  unfold withTable
  split <;> rfl

theorem mem_withTable {f : DatabaseFile} {name : Text} {o : SchemaObject} :
    o ∈ (f.withTable name).objects ↔ o ∈ f.objects ∨ f.free name = true ∧ o = ⟨.table, name⟩ := by
  unfold withTable
  split
  · next hfree => simp only [List.mem_append, List.mem_singleton, hfree, true_and]
  · next hfree => simp only [hfree, false_and, or_false, Bool.false_eq_true]

/-- A table is in the way of its own name only. -/
theorem free_withTable (f : DatabaseFile) {name other : Text} (h : sameName name other = false) :
    (f.withTable name).free other = f.free other := by
  rw [Bool.eq_iff_iff, free_iff, free_iff]
  constructor
  · exact fun hall o ho => hall o (mem_withTable.mpr (Or.inl ho))
  · intro hall o ho
    rcases mem_withTable.mp ho with ho | ⟨-, rfl⟩
    · exact hall o ho
    · rw [SchemaObject.occupies, h, Bool.and_false]

/-- A table is made exactly if its name is free. -/
theorem createTable_cases (name : Text) (autoincrement : Bool) (rows : Store → Store) (f : DatabaseFile) :
    (f.free name = true ∧ createTable name autoincrement rows f = .ok { (if autoincrement then
        (f.withTable name).withTable sequence else f.withTable name) with tables := rows f.tables }) ∨
      (f.free name = false ∧ ∃ e, createTable name autoincrement rows f = .error e) := by
  have hfree : f.free name = false ↔ (f.objects.any fun o =>
      (o.type = .table || o.type = .view) && sameName o.name name) = true ∨
      (f.objects.any fun o => o.type = .index && sameName o.name name) = true := by
    rw [← Bool.not_eq_true, free_iff]
    simp only [SchemaObject.occupies, List.any_eq_true, ← exists_or, ← and_or_left, not_forall]
    refine exists_congr fun o => ?_
    rw [exists_prop]
    refine and_congr_right fun _ => ?_
    cases o.type <;> simp
  unfold createTable
  split
  · next htaken => exact Or.inr ⟨hfree.mpr (Or.inl htaken), _, rfl⟩
  split
  · next htaken => exact Or.inr ⟨hfree.mpr (Or.inr htaken), _, rfl⟩
  · next htable hindex =>
    refine Or.inl ⟨?_, ?_⟩
    · rw [← Bool.not_eq_false, hfree]
      exact fun h => h.elim htable hindex
    · cases autoincrement <;> simp

theorem createTable_error {name : Text} {autoincrement : Bool} {rows : Store → Store} {f : DatabaseFile}
    {e : Text} (h : createTable name autoincrement rows f = .error e) : f.free name = false := by
  rcases createTable_cases name autoincrement rows f with ⟨-, hok⟩ | ⟨hfree, -⟩
  · rw [hok] at h
    cases h
  · exact hfree

/-- What a statement that succeeds makes of a file. -/
theorem createTable_ok {name : Text} {autoincrement : Bool} {rows : Store → Store} {f f' : DatabaseFile}
    (h : createTable name autoincrement rows f = .ok f') :
    f.free name = true ∧ f'.tables = rows f.tables ∧ ⟨.table, name⟩ ∈ f'.objects ∧
      (∀ o ∈ f.objects, o ∈ f'.objects) ∧
      (∀ o ∈ f'.objects, o ∈ f.objects ∨ o = ⟨.table, name⟩ ∨ o = ⟨.table, sequence⟩) ∧
      ∀ other, sameName name other = false → sameName sequence other = false →
        f'.free other = f.free other := by
  rcases createTable_cases name autoincrement rows f with ⟨hfree, hok⟩ | ⟨-, e, herror⟩
  · rw [hok] at h
    cases h
    refine ⟨hfree, rfl, ?_⟩
    cases autoincrement with
    | false =>
      refine ⟨mem_withTable.mpr (Or.inr ⟨hfree, rfl⟩), fun o ho => mem_withTable.mpr (Or.inl ho),
        fun o ho => (mem_withTable.mp ho).imp_right fun hnew => Or.inl hnew.2, fun other hname _ => ?_⟩
      exact f.free_withTable hname
    | true =>
      refine ⟨mem_withTable.mpr (Or.inl (mem_withTable.mpr (Or.inr ⟨hfree, rfl⟩))),
        fun o ho => mem_withTable.mpr (Or.inl (mem_withTable.mpr (Or.inl ho))), fun o ho => ?_,
        fun other hname hsequence => ?_⟩
      · rcases mem_withTable.mp ho with ho | ⟨-, hnew⟩
        · exact (mem_withTable.mp ho).imp_right fun hnew => Or.inl hnew.2
        · exact Or.inr (Or.inr hnew)
      · exact ((f.withTable name).free_withTable hsequence).trans (f.free_withTable hname)
  · rw [herror] at h
    cases h

/-- What the three statements make of a file. -/
structure SetUp (f f' : DatabaseFile) : Prop where
  hasTables : f'.HasTables
  kept : ∀ o ∈ f.objects, o ∈ f'.objects
  added : ∀ o ∈ f'.objects, o ∈ f.objects ∨ ∃ name ∈ sequence :: tableNames, o = ⟨.table, name⟩
  tables : f'.tables = .empty

theorem mem_made {o : SchemaObject} {name : Text} (hname : name ∈ tableNames)
    (h : o = ⟨.table, name⟩ ∨ o = ⟨.table, sequence⟩) :
    ∃ made ∈ sequence :: tableNames, o = ⟨.table, made⟩ := by
  rcases h with rfl | rfl
  · exact ⟨name, List.mem_cons_of_mem _ hname, rfl⟩
  · exact ⟨sequence, List.mem_cons_self, rfl⟩

/-- The tables are made if all of their names are free, and none of them else. -/
theorem changeAll_creations (f : DatabaseFile) :
    (f.Free ∧ ∃ f', Connection.changeAll creations f = .ok f' ∧ f.SetUp f') ∨
      (¬ f.Free ∧ ∃ e, Connection.changeAll creations f = .error e) := by
  have hfree : f.Free ↔ f.free sourcefiles = true ∧ f.free archives = true ∧ f.free queue = true := by
    simp only [Free, tableNames, List.forall_mem_cons, List.not_mem_nil, false_imp_iff, implies_true, and_true]
  simp only [creations, Connection.changeAll, hfree]
  cases h₁ : createTable sourcefiles true (fun db => { db with sourcefiles := .empty }) f with
  | error e =>
    refine Or.inr ⟨?_, e, rfl⟩
    rw [createTable_error h₁]
    exact fun h => Bool.false_ne_true h.1
  | ok f₁ =>
  obtain ⟨hname₁, htables₁, hmade₁, hkept₁, hadded₁, hfree₁⟩ := createTable_ok h₁
  have harchives₁ : f₁.free archives = f.free archives := hfree₁ archives (by decide) (by decide)
  have hqueue₁ : f₁.free queue = f.free queue := hfree₁ queue (by decide) (by decide)
  dsimp only
  cases h₂ : createTable archives false (fun db => { db with archives := .empty }) f₁ with
  | error e =>
    refine Or.inr ⟨?_, e, rfl⟩
    rw [← harchives₁, createTable_error h₂]
    exact fun h => Bool.false_ne_true h.2.1
  | ok f₂ =>
  obtain ⟨hname₂, htables₂, hmade₂, hkept₂, hadded₂, hfree₂⟩ := createTable_ok h₂
  have hqueue₂ : f₂.free queue = f.free queue := (hfree₂ queue (by decide) (by decide)).trans hqueue₁
  dsimp only
  cases h₃ : createTable queue false (fun db => { db with queue := [] }) f₂ with
  | error e =>
    refine Or.inr ⟨?_, e, rfl⟩
    rw [← hqueue₂, createTable_error h₃]
    exact fun h => Bool.false_ne_true h.2.2
  | ok f₃ =>
  obtain ⟨hname₃, htables₃, hmade₃, hkept₃, hadded₃, -⟩ := createTable_ok h₃
  refine Or.inl ⟨⟨hname₁, harchives₁ ▸ hname₂, hqueue₂ ▸ hname₃⟩, f₃, rfl, ?_, ?_, ?_, ?_⟩
  · intro name hname
    simp only [tableNames, List.mem_cons, List.not_mem_nil, or_false] at hname
    rcases hname with rfl | rfl | rfl
    · exact hkept₃ _ (hkept₂ _ hmade₁)
    · exact hkept₃ _ hmade₂
    · exact hmade₃
  · exact fun o ho => hkept₃ o (hkept₂ o (hkept₁ o ho))
  · intro o ho
    rcases hadded₃ o ho with ho | hnew
    · rcases hadded₂ o ho with ho | hnew
      · exact (hadded₁ o ho).imp_right (mem_made (by decide))
      · exact Or.inr (mem_made (by decide) hnew)
    · exact Or.inr (mem_made (by decide) hnew)
  · rw [htables₃, htables₂, htables₁]
    rfl

end DatabaseFile

/-! ## connect -/

/-- The object that holds the connection: `m_db` is a null pointer before `connect`. -/
structure Database where
  connection : Connection DatabaseFile
  opened : Bool

namespace Database

open DatabaseFile

/-- A program that has not opened the file yet. -/
def closed (f : DatabaseFile) : Database := ⟨⟨f, none⟩, false⟩

/-- What `sqlite3_exec` says of a statement that failed. -/
def message : StatementError Text → Text
  | .nested => "cannot start a transaction within a transaction".toList
  | .inactive => "cannot commit - no transaction is active".toList
  | .failed e => e

/-- What SQLite says when the file is opened, when the schema is asked for the tables, and of a statement of
the set-up that fails by itself, as on a full disk: which one it is, and why. -/
structure ConnectAnswers where
  openError : Option Text
  selectError : Option Text
  setupError : Option (Fin setupStatements.length × Text)

/-- Nothing fails by itself. -/
def ConnectAnswers.working : ConnectAnswers := ⟨none, none, none⟩

/-- What `execSql` throws. -/
def sqlError (text : Text) : Thrown := .dbError ⟨.sqlError, "SQL Error: ".toList ++ text⟩

/-- `execSql` for several statements. -/
def execSql (statements : List (Statement DatabaseFile Text)) : Action Database Thrown Unit := fun db =>
  match db.connection.execAll statements with
  | (connection, none) => ({ db with connection }, .returned ())
  | (connection, some error) => ({ db with connection }, .threw (sqlError (message error)))

/-- `isDBInitialized`. The destructor that executes the `SELECT` throws nothing. -/
def isDBInitialized (error : Option Text) : Action Database Thrown Bool :=
  Action.noexcept <|
    match error with
    | some error => .throw (sqlError error)
    | none => fun db => (db, .returned db.connection.stored.isDBInitialized)

/-- `setupTables`, with the same destructor. -/
def setupTables (error : Option (Fin setupStatements.length × Text)) : Action Database Thrown Unit :=
  Action.noexcept <| execSql <|
    match error with
    | some (n, error) => setupStatements.set n (.change fun _ => .error error)
    | none => setupStatements

/-- `connect`. -/
def connect (answers : ConnectAnswers) (create : Bool) : Action Database Thrown Unit := fun db =>
  if db.opened then (db, .threw (.dbError ⟨.connectionError, "Database already opened".toList⟩))
  else
    let db := { db with opened := true }
    match answers.openError with
    -- there is a handle nevertheless
    | some error => (db, .threw (.dbError ⟨.connectionError, error⟩))
    | none =>
        (isDBInitialized answers.selectError).bind (fun initialized =>
          if initialized then Action.pure ()
          else if create then setupTables answers.setupError
          else .throw (.dbError ⟨.emptyDatabase, "Database is not initialized".toList⟩)) db

/-- Some statement of the set-up fails. -/
def SetupFails (f : DatabaseFile) (answers : ConnectAnswers) : Prop :=
  ¬ f.Free ∨ answers.setupError.isSome = true

/-- The tables are made, or the program ends and the file stays as it was. -/
theorem setupTables_cases (f : DatabaseFile) (opened : Bool) (answers : ConnectAnswers) :
    (¬ SetupFails f answers ∧ ∃ f', f.SetUp f' ∧
        setupTables answers.setupError ⟨⟨f, none⟩, opened⟩ = (⟨⟨f', none⟩, opened⟩, .returned ())) ∨
      (SetupFails f answers ∧ ∃ pending,
        setupTables answers.setupError ⟨⟨f, none⟩, opened⟩ = (⟨⟨f, pending⟩, opened⟩, .terminated)) := by
  -- a statement that fails ends the program
  have hends : ∀ {statements : List (Statement DatabaseFile Text)} {pending : Option DatabaseFile}
      {error : StatementError Text},
      (⟨f, none⟩ : Connection DatabaseFile).execAll statements = (⟨f, pending⟩, some error) →
      (Action.noexcept (execSql statements)) ⟨⟨f, none⟩, opened⟩ = (⟨⟨f, pending⟩, opened⟩, .terminated) := by
    intro statements pending error hall
    refine Action.noexcept_threw (e := sqlError (message error)) ?_
    simp only [execSql, hall]
  unfold SetupFails setupTables
  cases answers.setupError with
  | some failure =>
    obtain ⟨⟨n, hn⟩, e⟩ := failure
    obtain ⟨pending, error, hall⟩ := Connection.execAll_transaction_set f creations hn e
    exact Or.inr ⟨Or.inr rfl, pending, hends hall⟩
  | none =>
  rcases f.changeAll_creations with ⟨hfree, f', hok, hsetup⟩ | ⟨hfree, e, herror⟩
  · rcases Connection.execAll_transaction f creations with ⟨f'', hok', hall⟩ | ⟨e, p, herror, -⟩
    · cases hok.symm.trans hok'
      refine Or.inl ⟨by simpa using hfree, f', hsetup, Action.noexcept_returned ?_⟩
      simp only [execSql, setupStatements, hall]
    · cases hok.symm.trans herror
  · rcases Connection.execAll_transaction f creations with ⟨f', hok, -⟩ | ⟨e', p, -, hall⟩
    · cases herror.symm.trans hok
    · exact Or.inr ⟨Or.inl hfree, some p, hends hall⟩

/-- The ways in which the first `connect` of a program can go. -/
inductive Connects (f : DatabaseFile) (answers : ConnectAnswers) (create : Bool) :
    Database × Completion Thrown Unit → Prop
  | notOpened {error : Text} (hopen : answers.openError = some error) {e : Thrown} :
      Connects f answers create (⟨⟨f, none⟩, true⟩, .threw e)
  | notRead {error : Text} (hopen : answers.openError = none) (hselect : answers.selectError = some error) :
      Connects f answers create (⟨⟨f, none⟩, true⟩, .terminated)
  | found (hopen : answers.openError = none) (hselect : answers.selectError = none)
      (htables : f.HasTables) : Connects f answers create (⟨⟨f, none⟩, true⟩, .returned ())
  | missing (hopen : answers.openError = none) (hselect : answers.selectError = none)
      (htables : ¬ f.HasTables) (hcreate : create = false) {e : Thrown} :
      Connects f answers create (⟨⟨f, none⟩, true⟩, .threw e)
  | made {f' : DatabaseFile} (hopen : answers.openError = none) (hselect : answers.selectError = none)
      (htables : ¬ f.HasTables) (hcreate : create = true) (hworks : ¬ SetupFails f answers)
      (hsetup : f.SetUp f') : Connects f answers create (⟨⟨f', none⟩, true⟩, .returned ())
  | notMade {pending : Option DatabaseFile} (hopen : answers.openError = none)
      (hselect : answers.selectError = none) (htables : ¬ f.HasTables) (hcreate : create = true)
      (hfails : SetupFails f answers) : Connects f answers create (⟨⟨f, pending⟩, true⟩, .terminated)

theorem connect_connects (f : DatabaseFile) (answers : ConnectAnswers) (create : Bool) :
    Connects f answers create (connect answers create (closed f)) := by
  unfold connect
  rw [if_neg (show ¬ (closed f).opened = true from nofun)]
  cases hopen : answers.openError with
  | some error => exact .notOpened hopen
  | none =>
  cases hselect : answers.selectError with
  | some error => exact .notRead hopen hselect
  | none =>
  have hasked : isDBInitialized none ⟨⟨f, none⟩, true⟩ = (⟨⟨f, none⟩, true⟩, .returned f.isDBInitialized) :=
    rfl
  dsimp only [closed]
  rw [Action.bind_returned hasked]
  by_cases htables : f.HasTables
  · rw [if_pos ((isDBInitialized_iff f).mpr htables)]
    exact .found hopen hselect htables
  · rw [if_neg (by rwa [isDBInitialized_iff])]
    cases create with
    | false => exact .missing hopen hselect htables rfl
    | true =>
      rcases setupTables_cases f true answers with ⟨hworks, f', hsetup, hended⟩ | ⟨hfails, pending, hended⟩
      · rw [if_pos rfl, hended]
        exact .made hopen hselect htables rfl hworks hsetup
      · rw [if_pos rfl, hended]
        exact .notMade hopen hselect htables rfl hfails

/-- The first `connect` of a program returns exactly if the file can be opened and read, and all tables are
there, or they are to be made and each statement that makes them succeeds. Then they are there. In all other
cases the file stays as it was: if it cannot be read or a table cannot be made, the program ends, else there
is an exception that says why. -/
theorem connect_returned_iff (f : DatabaseFile) (answers : ConnectAnswers) (create : Bool) :
    ((connect answers create (closed f)).2 = .returned () ↔
        answers.openError = none ∧ answers.selectError = none ∧
          (f.HasTables ∨ create = true ∧ ¬ SetupFails f answers)) ∧
      ((connect answers create (closed f)).2 = .returned () →
        (connect answers create (closed f)).1.connection.pending = none ∧
          if f.HasTables then (connect answers create (closed f)).1.connection.stored = f
          else f.SetUp (connect answers create (closed f)).1.connection.stored) ∧
      ((connect answers create (closed f)).2 ≠ .returned () →
        (connect answers create (closed f)).1.connection.stored = f) ∧
      ((connect answers create (closed f)).2 = .terminated ↔
        answers.openError = none ∧ (answers.selectError.isSome = true ∨
          ¬ f.HasTables ∧ create = true ∧ SetupFails f answers)) := by
  have hconnects := connect_connects f answers create
  generalize connect answers create (closed f) = ended at hconnects
  cases hconnects with
  | notOpened hopen => simp [hopen]
  | notRead hopen hselect => simp [hopen, hselect]
  | found hopen hselect htables => simp [hopen, hselect, htables]
  | missing hopen hselect htables hcreate => simp [hopen, hselect, htables, hcreate]
  | made hopen hselect htables hcreate hworks hsetup =>
    simp [hopen, hselect, htables, hcreate, hworks, hsetup]
  | notMade hopen hselect htables hcreate hfails => simp [hopen, hselect, htables, hcreate, hfails]

end Database

end MediaArchiver
