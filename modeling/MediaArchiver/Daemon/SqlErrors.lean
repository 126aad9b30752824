/-
# MediaArchiver.Daemon.SqlErrors -- a statement fails: who hears of it

A statement of the store is run by the destructor of a temporary: `SQL << ...` collects the text, and
`~ExecSQL` hands it to `sqlite3_exec` and throws a `DBError` if that fails. Around the store's functions
stand the lambdas of the RPC server and the loop of the mover, most of them with a handler for
`std::exception`.

Neither works. The destructor is not declared `noexcept(false)`, so the exception ends the program before
it reaches the caller (`terminated_program_iff`); and if it got there, no handler would take it, because
`DBError` inherits from `std::exception` privately (`not_caught`).

One error is none: a callback that wants no further rows makes `sqlite3_exec` answer that the query was
aborted.
-/
import MediaArchiver.Lib.Exceptions
import MediaArchiver.Daemon.Mover
import MediaArchiver.Store.Statements

namespace MediaArchiver

open Lib (Action ClassChain Completion Script)

/-! ## What is thrown -/

inductive DBErrorCodes where
  | none
  | connectionError
  | accessDenied
  | emptyDatabase
  | alreadyInitialized
  | sqlError
  | invalidDataReturned
deriving DecidableEq

/-- The exception of the store. -/
structure DBError where
  id : DBErrorCodes
  message : Text
deriving DecidableEq

/-- An exception. -/
inductive Thrown where
  | exn (e : Exn)
  | dbError (e : DBError)
deriving DecidableEq

namespace Thrown

/-- The classes of exceptions. -/
inductive ClassName where
  | exception
  | runtimeError
  | logicError
  | ioError
  | networkError
  | outOfRange
  | lengthError
  | badAlloc
  | rpcError
  | rpcTimeout
  | systemError
  | dbError
deriving DecidableEq

def cls : Thrown → ClassChain ClassName
  | .exn (.runtimeError _) => ⟨.runtimeError, [(.publicly, .exception)]⟩
  | .exn (.ioError _) => ⟨.ioError, [(.publicly, .runtimeError), (.publicly, .exception)]⟩
  | .exn (.networkError _) => ⟨.networkError, [(.publicly, .runtimeError), (.publicly, .exception)]⟩
  | .exn (.outOfRange _) => ⟨.outOfRange, [(.publicly, .logicError), (.publicly, .exception)]⟩
  | .exn (.lengthError _) => ⟨.lengthError, [(.publicly, .logicError), (.publicly, .exception)]⟩
  | .exn (.badAlloc _) => ⟨.badAlloc, [(.publicly, .exception)]⟩
  | .exn (.rpcError _) => ⟨.rpcError, [(.publicly, .runtimeError), (.publicly, .exception)]⟩
  | .exn (.rpcTimeout _) => ⟨.rpcTimeout, [(.publicly, .runtimeError), (.publicly, .exception)]⟩
  | .exn (.systemError _) => ⟨.systemError, [(.publicly, .runtimeError), (.publicly, .exception)]⟩
  -- `class DBError : std::exception`
  | .dbError _ => ⟨.dbError, [(.privately, .exception)]⟩

/-- `what()`. -/
def what : Thrown → Text
  | .exn e => e.what
  | .dbError e => e.message

/-- `catch(const std::exception &)` takes it. -/
def caught (e : Thrown) : Bool := e.cls.Matches .exception

/-- No handler of the daemon takes the store's exception. -/
theorem not_caught (e : DBError) : (dbError e).caught = false := by
  rw [caught, cls, decide_eq_false_iff_not, ClassChain.matches_privately]
  exact ClassName.noConfusion

end Thrown

/-! ## Statements -/

/-- What `sqlite3_exec` answers: a code, and a text if there is memory for one. -/
structure ExecAnswer where
  rc : Int
  zErrMsg : Option Text

namespace ExecAnswer

/-- `SQLITE_OK` -/
def ok : ExecAnswer := ⟨0, none⟩

/-- The text for a callback that wants no more rows. -/
def queryAborted : Text := "query aborted".toList

/-- The statement failed. -/
def Fails (a : ExecAnswer) : Prop := a.rc ≠ 0 ∧ a.zErrMsg ≠ some queryAborted

instance (a : ExecAnswer) : Decidable a.Fails := inferInstanceAs (Decidable (_ ∧ _))

end ExecAnswer

/-- The database, and what `sqlite3_exec` answers to the statements to come. -/
structure SqlState where
  db : Store
  answers : List ExecAnswer

namespace SqlState

/-- The answer to the next statement. Without an answer in the list the statement succeeds. -/
def answer (s : SqlState) : ExecAnswer := s.answers.headD .ok

/-- After a statement. -/
def next (s : SqlState) (f : Store → Store) : SqlState := ⟨f s.db, s.answers.tail⟩

end SqlState

/-- `SQLite::execSql`. A statement that fails changes nothing. -/
def execSql (f : Store → Store) : Action SqlState Thrown Store := fun s =>
  if s.answer.rc = 0 then (s.next f, .returned s.db)
  else
    match s.answer.zErrMsg with
    -- a string is compared with a null pointer
    | none => (s.next id, .terminated)
    | some zErrMsg =>
        if ExecAnswer.queryAborted ≠ zErrMsg then
          (s.next id, .threw (.dbError ⟨.sqlError, "SQL Error: ".toList ++ zErrMsg⟩))
        else (s.next f, .returned s.db)

/-- `ExecSQL::~ExecSQL` -/
def execSQLDestructor (f : Store → Store) : Action SqlState Thrown Store := (execSql f).noexcept

/-- A function of the store, with its statements. -/
def perform {α : Type} : Script Store α → Action SqlState Thrown α
  | .done a => .pure a
  | .step f k => (execSQLDestructor f).bind fun db => perform (k db)

/-- A statement fails that is executed. -/
def Fails {α : Type} : Script Store α → SqlState → Prop
  | .done _, _ => False
  | .step f k, s => s.answer.Fails ∨ Fails (k s.db) (s.next f)

theorem execSql_cases (f : Store → Store) (s : SqlState) :
    (¬ s.answer.Fails ∧ execSql f s = (s.next f, .returned s.db)) ∨
      (s.answer.Fails ∧ ((execSql f s = (s.next id, .terminated)) ∨
        ∃ e, execSql f s = (s.next id, .threw (.dbError e)))) := by
  unfold execSql ExecAnswer.Fails
  by_cases hrc : s.answer.rc = 0
  · rw [if_pos hrc]
    exact Or.inl ⟨fun h => h.1 hrc, rfl⟩
  rw [if_neg hrc]
  cases s.answer.zErrMsg with
  | none => exact Or.inr ⟨⟨hrc, nofun⟩, Or.inl rfl⟩
  | some zErrMsg =>
    by_cases habort : ExecAnswer.queryAborted = zErrMsg
    · refine Or.inl ⟨fun h => h.2 (congrArg some habort.symm), ?_⟩
      exact if_neg (not_not.mpr habort)
    · have hfails : some zErrMsg ≠ some ExecAnswer.queryAborted :=
        fun h => habort (Option.some.inj h).symm
      exact Or.inr ⟨⟨hrc, hfails⟩, Or.inr ⟨⟨.sqlError, "SQL Error: ".toList ++ zErrMsg⟩, if_pos habort⟩⟩

/-- The exception does not leave the destructor. -/
theorem execSQLDestructor_cases (f : Store → Store) (s : SqlState) :
    (¬ s.answer.Fails ∧ execSQLDestructor f s = (s.next f, .returned s.db)) ∨
      (s.answer.Fails ∧ execSQLDestructor f s = (s.next id, .terminated)) := by
  rcases execSql_cases f s with ⟨hok, hreturned⟩ | ⟨hfails, hended | ⟨e, hthrew⟩⟩
  · exact Or.inl ⟨hok, Action.noexcept_returned hreturned⟩
  · exact Or.inr ⟨hfails, Action.terminated_noexcept hended⟩
  · exact Or.inr ⟨hfails, Action.noexcept_threw hthrew⟩

/-- A function of the store returns, or ends the program; it never throws what a statement threw. -/
theorem perform_cases {α : Type} (p : Script Store α) (s : SqlState) :
    (¬ Fails p s ∧ (perform p s).2 = .returned (p.run s.db).2 ∧ (perform p s).1.db = (p.run s.db).1) ∨
      (Fails p s ∧ (perform p s).2 = .terminated) := by
  induction p generalizing s with
  | done a => exact Or.inl ⟨id, rfl, rfl⟩
  | step f k ih =>
    rcases execSQLDestructor_cases f s with ⟨hok, hreturned⟩ | ⟨hfails, hended⟩
    · rw [perform, Action.bind_returned hreturned]
      rcases ih s.db (s.next f) with ⟨hnext, hrun⟩ | ⟨hnext, hended⟩
      · exact Or.inl ⟨fun h => h.elim hok hnext, hrun⟩
      · exact Or.inr ⟨Or.inr hnext, hended⟩
    · rw [perform, Action.terminated_bind hended]
      exact Or.inr ⟨Or.inl hfails, rfl⟩

/-! ## Who calls the store -/

/-- The statements of `reset`. -/
def Store.resetScript (srcFileId : Nat) : Script Store Unit :=
  .write (·.reset srcFileId) (.done ())

/-- The statements of `connect`: it looks for the tables and makes them if they are not there. -/
def Store.connectScript (initialized create : Bool) : Script Store Unit :=
  .select fun _ => if !initialized && create then .write id (.done ()) else .done ()

/-- A call of the store, with the place from which it is made. -/
inductive CallSite where
  /-- From the lambda for `getNextFile`. -/
  | getNextFile (limit : LimitOne) (filter : MediaFileRequirements)
  /-- From `abort`, in a lambda without a handler. -/
  | abort (srcFileId : Nat)
  /-- From the mover, for an entry that reports a failure. -/
  | recordFailure (ftm : FileToMove)
  /-- From the mover, after a file was moved. -/
  | recordMoved (ftm : FileToMove)
  /-- From the mover, after a move failed. -/
  | recordMoveError (ftm : FileToMove) (error : Text)
  /-- From `onFileSystemChange`. -/
  | fileSystemChange (src dst : Option BasicFileInfo) (queue : Bool)
  /-- From `main`. -/
  | connect (initialized create : Bool)

namespace CallSite

/-- The function of the store. What it returns does not matter here. -/
def operation : CallSite → Script Store Unit
  | .getNextFile limit filter => (Store.getNextFileScript limit filter).bind fun _ => .done ()
  | .abort srcFileId => Store.resetScript srcFileId
  | .recordFailure ftm => Store.addEncodedFileScript ftm.result
  | .recordMoved ftm => Store.addEncodedFileScript ftm.result
  | .recordMoveError ftm error => Store.addEncodedFileScript (ftm.moveError error)
  | .fileSystemChange src dst queue => (Store.addFileScript src dst queue).bind fun _ => .done ()
  | .connect initialized create => Store.connectScript initialized create

/-- The call in its surroundings. -/
def program (c : CallSite) : Action SqlState Thrown Unit :=
  match c with
  | .getNextFile _ _ =>
      -- the handler responds with the error
      (perform c.operation).tryCatch Thrown.caught fun _ => .pure ()
  | .recordMoved ftm =>
      -- the handler notes the error, and that is recorded behind the `try` block
      (perform c.operation).tryCatch Thrown.caught fun e =>
        perform (Store.addEncodedFileScript (ftm.moveError e.what))
  | _ => perform c.operation

/-- The error reaches the caller of the store's function as a `DBError`, and the daemon goes on. -/
def Survives (c : CallSite) (s : SqlState) : Prop :=
  (∃ e, (perform c.operation s).2 = .threw (.dbError e)) ∧ (c.program s).2 = .returned ()

/-- The program ends exactly if a statement fails. -/
theorem terminated_program_iff (c : CallSite) (s : SqlState) :
    (c.program s).2 = .terminated ↔ Fails c.operation s := by
  have htry : ∀ handler, (((perform c.operation).tryCatch Thrown.caught handler) s).2 = .terminated ↔
      (perform c.operation s).2 = .terminated := by
    intro handler
    rcases perform_cases c.operation s with ⟨-, hreturned, -⟩ | ⟨-, hended⟩
    · have heq : perform c.operation s = ((perform c.operation s).1, .returned ()) :=
        Prod.ext rfl hreturned
      rw [Action.tryCatch_returned heq, hreturned]
    · have heq : perform c.operation s = ((perform c.operation s).1, .terminated) := Prod.ext rfl hended
      rw [Action.terminated_tryCatch heq, hended]
  have hperform : (perform c.operation s).2 = .terminated ↔ Fails c.operation s := by
    rcases perform_cases c.operation s with ⟨hok, hreturned, -⟩ | ⟨hfails, hended⟩
    · rw [hreturned]
      exact iff_of_false (fun h => by cases h) hok
    · exact iff_of_true hended hfails
  cases c with
  | getNextFile limit filter => exact (htry _).trans hperform
  | recordMoved ftm => exact (htry _).trans hperform
  | abort srcFileId => exact hperform
  | recordFailure ftm => exact hperform
  | recordMoveError ftm error => exact hperform
  | fileSystemChange src dst queue => exact hperform
  | connect initialized create => exact hperform

/-- A statement that fails ends the program, wherever the call is made and whatever the error is. -/
theorem sql_error_terminates (c : CallSite) (s : SqlState) (h : Fails c.operation s) :
    (c.program s).2 = .terminated ∧ ¬ c.Survives s := by
  have hended := (c.terminated_program_iff s).mpr h
  refine ⟨hended, ?_⟩
  rintro ⟨-, hreturned⟩
  rw [hended] at hreturned
  cases hreturned

/-- The disk is full when the reservation of a file is taken back. -/
theorem sql_error_terminates_full :
    ((abort 1).program ⟨.empty, [⟨13, some "database or disk is full".toList⟩]⟩).2 = .terminated
      ∧ ¬ (abort 1).Survives ⟨.empty, [⟨13, some "database or disk is full".toList⟩]⟩ :=
  sql_error_terminates _ _ (Or.inl (by decide))

/-- A client asks for a file while the database is locked, and the daemon is gone. -/
theorem locked_not_survived :
    Fails (getNextFile .first ⟨[], 0⟩).operation ⟨.empty, [⟨5, some "database is locked".toList⟩]⟩
      ∧ ¬ (getNextFile .first ⟨[], 0⟩).Survives ⟨.empty, [⟨5, some "database is locked".toList⟩]⟩ := by
  refine ⟨Or.inl (by decide), ?_⟩
  rintro ⟨-, hreturned⟩
  cases hreturned

end CallSite

end MediaArchiver
