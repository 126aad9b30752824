/-
# MediaArchiver.Daemon.OneClient -- a daemon that one client has to itself

If only one token is ever used, there is at most one session (`Single`), wherever its client connects.
That session is `Closed` if neither of its files is open. Of the calls, `getNextFile` can open a closed
session and says so by a length (`closed_getNextFile`), and `postFile` with an upload can. An accepted
failure and the last chunk of an upload leave it closed.
-/
import MediaArchiver.Daemon.Calls

namespace MediaArchiver

open Lib (Machine WriteAnswer)
open Connections (TokensUnique)
open ConnectedClient (Readable)

namespace ConnectedClient

variable {cli : ConnectedClient} {cfg : DaemonConfig}

/-- Neither file is open. -/
def Closed (cli : ConnectedClient) : Prop :=
  cli.inFile.isOpen = false ∧ cli.outFile.isOpen = false

instance (cli : ConnectedClient) : Decidable cli.Closed := inferInstanceAs (Decidable (_ ∧ _))

theorem closed_prepareNewSession (cli : ConnectedClient) (cfg : DaemonConfig) :
    (cli.prepareNewSession cfg).1.Closed := ⟨rfl, rfl⟩

/-- What a session without an open file gets from `getNextFile`: nothing, and it stays closed; or a file
that the database had and that opens. -/
theorem closed_getNextFile (cfg : DaemonConfig) (h : cli.Closed) (stopRequested : Bool) (db : Store)
    (limit : LimitOne) (src : SourceAnswers) (filter : MediaFileRequirements) :
    ((cli.getNextFile cfg stopRequested db limit src filter).2.1.Closed ∧
      ∀ settings, (cli.getNextFile cfg stopRequested db limit src filter).2.2 = .ok settings →
        settings.fileLength = 0) ∨
      (stopRequested = false ∧
        (∃ db' srcId file, db.getNextFile limit filter = (db', some (srcId, file))
          ∧ Readable src file) ∧
        ∃ settings, (cli.getNextFile cfg stopRequested db limit src filter).2.2 = .ok settings
          ∧ 0 < settings.fileLength) := by
  have hnothing : ∀ settings,
      (Except.ok (ε := Exn) ((cli.forget filter).announce cfg 0).encSettings) = .ok settings →
      settings.fileLength = 0 := by
    intro settings hans
    obtain rfl := Except.ok.inj hans
    rfl
  rcases getNextFile_cases h.1 h.2 cfg stopRequested db limit src filter with
    ⟨-, heq⟩ | ⟨db', srcId, file, hstop, hdb, ⟨-, e, -, heq⟩ | ⟨hread, c, heq, hserves, -, -⟩⟩
  · rw [heq]
    exact Or.inl ⟨h, hnothing⟩
  · rw [heq]
    exact Or.inl ⟨h, nofun⟩
  · rw [heq]
    refine Or.inr ⟨hstop, ⟨db', srcId, file, hdb, hread⟩, _, rfl, ?_⟩
    rw [hserves.length]
    exact Nat.pos_of_ne_zero hread.1

/-- A session that is told a length has opened a source. -/
theorem opened_getNextFile {stopRequested : Bool} {db : Store} {limit : LimitOne}
    {src : SourceAnswers} {filter : MediaFileRequirements} {settings : MediaEncoderSettings}
    (h : (cli.getNextFile cfg stopRequested db limit src filter).2.2 = .ok settings)
    (hlength : 0 < settings.fileLength) :
    ∃ name content, src.content name = some content
      ∧ (cli.getNextFile cfg stopRequested db limit src filter).2.1.inFile = .opened content
      ∧ (cli.getNextFile cfg stopRequested db limit src filter).2.1.token = cli.token := by
  rcases cli.getNextFile_refused_or_idle cfg stopRequested db limit src filter with
    ⟨e, heq⟩ | ⟨hin, hout⟩
  · rw [heq] at h
    cases h
  rcases getNextFile_cases hin hout cfg stopRequested db limit src filter with
    ⟨-, heq⟩ | ⟨db', srcId, file, -, -, ⟨-, e, -, heq⟩ | ⟨-, c, heq, hserves, htoken, -⟩⟩
  · rw [heq] at h
    obtain rfl := Except.ok.inj h
    cases hlength
  · rw [heq] at h
    cases h
  · rw [heq]
    obtain ⟨content, hcontent, hopened⟩ := hserves.source
    exact ⟨file.fileName, content, hcontent, hopened, htoken⟩

/-- Opening a source fails with another text, different already in its first letter. -/
theorem openSource_ne_alreadyOpen {src : SourceAnswers} {file : BasicFileInfo} {id : Nat} {name : Path}
    {what : String} : cli.openSource cfg src file ≠ .error (alreadyOpen id name what) := by
  unfold openSource alreadyOpen
  split
  · simp
  · split
    · simp
    · split <;> simp

/-- No file is open for a session without an open file. -/
theorem not_alreadyOpen (h : cli.Closed) (stopRequested : Bool) (db : Store) (limit : LimitOne)
    (src : SourceAnswers) (filter : MediaFileRequirements) (id : Nat) (name : Path) (what : String) :
    (cli.getNextFile cfg stopRequested db limit src filter).2.2 ≠ .error (alreadyOpen id name what) := by
  rcases getNextFile_cases h.1 h.2 cfg stopRequested db limit src filter with
    ⟨-, heq⟩ | ⟨db', srcId, file, -, -, ⟨-, e, herr, heq⟩ | ⟨-, c, heq, -⟩⟩
  · rw [heq]
    exact nofun
  · rw [heq]
    intro hans
    obtain rfl := Except.error.inj hans
    exact openSource_ne_alreadyOpen herr
  · rw [heq]
    exact nofun

/-- An upload that is finished leaves nothing open. -/
theorem closed_writeChunk {written : WriteAnswer UInt8} {flushed : Nat} {data : DataChunk}
    (h : (cli.writeChunk cfg written flushed data).answer = .ok false) :
    (cli.writeChunk cfg written flushed data).client.Closed := by
  unfold writeChunk at h ⊢
  split at h
  · cases h
  · rename_i hrefuses
    rw [if_neg hrefuses]
    dsimp only at h ⊢
    split at h
    · cases h
    · rename_i hmore
      rw [if_neg hmore]
      exact closed_prepareNewSession _ cfg

end ConnectedClient

/-- What happens to the daemon without a client. -/
def DaemonEvent.Background : DaemonEvent → Prop
  | .fileSystemChange .. | .moverTake | .moverFinish _ | .stop => True
  | _ => False

namespace Daemon

variable {cfg : DaemonConfig} {d d' : Daemon} {e : DaemonEvent} {token : Text} {id : SessionId}

/-- All sessions have one token, so there is one at most. -/
structure Single (token : Text) (d : Daemon) : Prop where
  tokens : ∀ r ∈ d.connections.rows, r.2.token = token
  unique : TokensUnique d.connections

theorem Single.eq_of_mem (h : Single token d) {r s : SessionId × ConnectedClient}
    (hr : r ∈ d.connections.rows) (hs : s ∈ d.connections.rows) : r = s :=
  h.unique r hr s hs ((h.tokens r hr).trans (h.tokens s hs).symm)

theorem single_start (token : Text) (db : Store) : Single token (start db) :=
  ⟨fun _ hr => absurd hr List.not_mem_nil, tokensUnique_start db⟩

theorem Single.store (h : Single token d) {cli cli' : ConnectedClient} (hcli : d.session id = some cli)
    (htoken : cli'.token = cli.token) (queued : Option FileToMove) :
    Single token (d.store id cli' queued) := by
  have hmem : (id, cli) ∈ d.connections.rows := d.connections.find?_eq_some.mp hcli
  refine ⟨?_, Connections.tokensUnique_insert h.unique hcli htoken⟩
  intro r hr
  rw [connections_store] at hr
  rcases (d.connections.mem_insert id cli' r).mp hr with rfl | ⟨hr, -⟩
  · exact htoken.trans (h.tokens _ hmem)
  · exact h.tokens r hr

/-- Whatever happens, there is still one, unless somebody authenticates with another token. -/
theorem Does.single (hdoes : Does cfg d e d') (h : Single token d)
    (hauth : ∀ {id junk token'}, e = .authenticate id junk token' → token' = token) :
    Single token d' := by
  cases hdoes with
  | nothing | addFile | drop | take | finish | stop => exact ⟨h.tokens, h.unique⟩
  | @authenticate id junk token' =>
    refine ⟨?_, Connections.tokensUnique_authenticate h.unique id junk token'⟩
    intro r hr
    rcases Connections.mem_authenticate.mp hr with rfl | ⟨⟨hr, -⟩, -⟩
    · exact (Connections.token_bound ..).trans (hauth rfl)
    · exact h.tokens r hr
  | keep hcli same => exact h.store hcli same.token none
  | forget hcli hin hout idle => exact h.store hcli idle.token none
  | reserve hcli hin hout hdb hread htoken =>
    have hstore := h.store hcli htoken none
    exact ⟨hstore.tokens, hstore.unique⟩
  | strand hcli hin hout hstop hdb hread idle | abort hcli hopen idle =>
    have hstore := h.store hcli idle.token none
    exact ⟨hstore.tokens, hstore.unique⟩
  | postFile hcli hup hands | writeChunk hcli hout hands => exact h.store hcli hands.token _
  | restart => exact single_start token d.db

/-- No session has an open file. -/
def Closed (d : Daemon) : Prop := ∀ r ∈ d.connections.rows, r.2.Closed

theorem closed_start (db : Store) : Closed (start db) := fun _ hr => absurd hr List.not_mem_nil

theorem Closed.store (h : Closed d) {cli : ConnectedClient} (hcli : cli.Closed)
    (queued : Option FileToMove) : Closed (d.store id cli queued) := by
  intro r hr
  rcases (d.connections.mem_insert id cli r).mp hr with rfl | ⟨hr, -⟩
  · exact hcli
  · exact h r hr

/-- The one session is closed, so all are. -/
theorem Single.closed_store (h : Single token d) {cli cli' : ConnectedClient}
    (hcli : d.session id = some cli) (hclosed : cli'.Closed) (queued : Option FileToMove) :
    Closed (d.store id cli' queued) := by
  have hmem : (id, cli) ∈ d.connections.rows := d.connections.find?_eq_some.mp hcli
  intro r hr
  rcases (d.connections.mem_insert id cli' r).mp hr with rfl | ⟨hr, hne⟩
  · exact hclosed
  · exact absurd (congrArg Prod.fst (h.eq_of_mem hr hmem)) hne

/-- What is not a call of a client leaves the sessions alone. -/
theorem connections_background (cfg : DaemonConfig) (he : e.Background) :
    ((machine cfg).step d e).connections = d.connections := by
  show (step cfg d e).connections = _
  cases e with
  | fileSystemChange getFileSize e dst =>
    simp only [step, fileSystemChange]
    split <;> rfl
  | moverTake =>
    simp only [step, moverTake]
    split
    · split <;> rfl
    · rfl
  | moverFinish outcome =>
    simp only [step, moverFinish]
    split <;> rfl
  | stop => rfl
  | _ => exact he.elim

/-- Authenticating opens nothing. -/
theorem Closed.authenticate (h : Closed d) (id : SessionId) (junk : Uninitialised) (token : Text) :
    Closed (Srv.authenticate id junk token d).1 :=
  Connections.forall_authenticate h id junk token fun _ => ⟨rfl, rfl⟩

/-- A session that asks gets a file: it is known, the daemon does not stop, and the file that the
database picks opens. -/
def Grants (limit : LimitOne) (src : SourceAnswers) (filter : MediaFileRequirements) (id : SessionId)
    (d : Daemon) : Prop :=
  (d.session id).isSome = true ∧ d.stopRequested = false ∧
    ∃ db' srcId file, d.db.getNextFile limit filter = (db', some (srcId, file)) ∧ Readable src file

/-- Asking opens a file and tells its length, or opens nothing and tells none. -/
theorem Closed.getNextFile (h : Closed d) (cfg : DaemonConfig) (id : SessionId) (limit : LimitOne)
    (src : SourceAnswers) (filter : MediaFileRequirements) :
    (Closed (Srv.getNextFile cfg id limit src filter d).1 ∧
      ∀ settings, (Srv.getNextFile cfg id limit src filter d).2 = .ok settings →
        settings.fileLength = 0) ∨
      (Grants limit src filter id d ∧
        ∃ settings, (Srv.getNextFile cfg id limit src filter d).2 = .ok settings
          ∧ 0 < settings.fileLength) := by
  unfold Srv.getNextFile withClient
  cases hcli : d.session id with
  | none => exact Or.inl ⟨h, nofun⟩
  | some cli =>
    have hclosed := h (id, cli) (d.connections.find?_eq_some.mp hcli)
    rcases ConnectedClient.closed_getNextFile cfg hclosed d.stopRequested d.db limit src
      filter with ⟨hafter, hans⟩ | ⟨hstop, hfile, hans⟩
    · exact Or.inl ⟨h.store hafter none, hans⟩
    · exact Or.inr ⟨⟨by rw [hcli]; rfl, hstop, hfile⟩, hans⟩

/-! ## What its session keeps -/

/-- There is one session. It has the token and the property, wherever it is. -/
def Sole (token : Text) (P : ConnectedClient → Prop) (d : Daemon) : Prop :=
  ∃ id cli, (cli.token = token ∧ P cli) ∧ ∀ r, r ∈ d.connections.rows ↔ r = (id, cli)

section Sole

variable {P Q : ConnectedClient → Prop} {cli cli' : ConnectedClient}

theorem Sole.of_session (h : Sole token P d) (hcli : d.session id = some cli) :
    cli.token = token ∧ P cli := by
  obtain ⟨id', cli', hcli', honly⟩ := h
  obtain ⟨-, rfl⟩ := Prod.mk.inj ((honly _).mp (d.connections.find?_eq_some.mp hcli))
  exact hcli'

theorem Sole.mono (h : Sole token P d) (hPQ : ∀ cli, cli.token = token → P cli → Q cli) :
    Sole token Q d := by
  obtain ⟨id, cli, ⟨htoken, hcli⟩, honly⟩ := h
  exact ⟨id, cli, ⟨htoken, hPQ cli htoken hcli⟩, honly⟩

theorem Sole.of_connections (h : Sole token P d) (heq : d'.connections = d.connections) :
    Sole token P d' := by
  unfold Sole
  rw [heq]
  exact h

/-- What a handler leaves behind takes the place of the session. -/
theorem Sole.store (h : Sole token P d) (hcli : d.session id = some cli)
    (htoken : cli'.token = token) (hcli' : Q cli') (queued : Option FileToMove) :
    Sole token Q (d.store id cli' queued) := by
  obtain ⟨id', c, -, honly⟩ := h
  obtain ⟨rfl, rfl⟩ := Prod.mk.inj ((honly _).mp (d.connections.find?_eq_some.mp hcli))
  refine ⟨id, cli', ⟨htoken, hcli'⟩, ?_⟩
  intro r
  rw [connections_store, Lib.Table.mem_insert, honly]
  constructor
  · rintro (rfl | ⟨rfl, hne⟩)
    · rfl
    · exact absurd rfl hne
  · exact Or.inl

/-- The session may move, but it stays the same. -/
theorem Sole.authenticate (h : Sole token P d) (cfg : DaemonConfig) (id : SessionId)
    (junk : Uninitialised) : Sole token P ((machine cfg).step d (.authenticate id junk token)) := by
  obtain ⟨id', cli, ⟨rfl, hcli⟩, honly⟩ := h
  have hmem : (id', cli) ∈ d.connections.rows := (honly _).mpr rfl
  have hbound : d.connections.bound junk cli.token = cli := by
    rcases d.connections.bound_cases junk cli.token with ⟨r, hr, -, hbound⟩ | ⟨hnone, -⟩
    · rw [hbound, (honly r).mp hr]
    · exact absurd rfl (hnone _ hmem)
  refine ⟨id, cli, ⟨rfl, hcli⟩, ?_⟩
  intro r
  show r ∈ (d.connections.authenticate id junk cli.token).rows ↔ _
  rw [Connections.mem_authenticate, hbound, honly]
  constructor
  · rintro (rfl | ⟨⟨rfl, hne⟩, -⟩)
    · rfl
    · exact absurd rfl hne
  · exact Or.inl

/-- The only session, if it is known at an id. -/
theorem Single.sole (h : Single token d) (hcli : d.session id = some cli) (hP : P cli) :
    Sole token P d := by
  have hmem : (id, cli) ∈ d.connections.rows := d.connections.find?_eq_some.mp hcli
  refine ⟨id, cli, ⟨h.tokens _ hmem, hP⟩, fun r => ⟨fun hr => h.eq_of_mem hr hmem, ?_⟩⟩
  rintro rfl
  exact hmem

end Sole

/-! ## The file it holds -/

/-- A session goes by the id of a file that is in the queue. -/
def Holds (d : Daemon) (id : SessionId) (file : Nat) : Prop :=
  (file ≠ 0 ∧ d.db.statuses file ≠ []) ∧ ∃ cli, d.session id = some cli ∧ cli.originalFileId = file

/-- Nobody goes by the file any more, and it waits to be handed out. -/
def GivenBack (d : Daemon) (file : Nat) : Prop :=
  (∀ id, ¬ d.Holds id file) ∧ d.db.statuses file ≠ [] ∧ ∀ status ∈ d.db.statuses file, status = 0

theorem Single.session_eq (h : Single token d) {id' : SessionId} {cli cli' : ConnectedClient}
    (hcli : d.session id = some cli) (hcli' : d.session id' = some cli') : id' = id ∧ cli' = cli :=
  Prod.mk.inj (h.eq_of_mem (d.connections.find?_eq_some.mp hcli')
    (d.connections.find?_eq_some.mp hcli))

/-- A session with an open file gives back what it holds. -/
theorem Single.givenBack_abort (h : Single token d) {conn : SessionId} {cli : ConnectedClient}
    {file : Nat} (hcli : d.session conn = some cli) (hopen : ¬ cli.Closed) (hholds : d.Holds id file) :
    (Srv.abort conn d).2 = .ok () ∧ (Srv.abort conn d).1.GivenBack file := by
  obtain ⟨⟨hfile, hqueued⟩, cli', hcli', hid⟩ := hholds
  obtain ⟨rfl, rfl⟩ := h.session_eq hcli hcli'
  rcases cli'.abort_spec with ⟨-, hclosed⟩ | ⟨hreleased, hidle⟩
  · exact absurd hclosed hopen
  have habort : Srv.abort id d
      = ({ d.store id cli'.abort.1 none with db := d.db.reset file }, .ok ()) := by
    rw [hid] at hreleased
    simp only [Srv.abort, withClient, hcli, Daemon.abort, hreleased]
  rw [habort]
  have hstatuses : (d.db.reset file).statuses file = (d.db.statuses file).map fun _ => 0 := by
    rw [Store.statuses_reset, if_pos rfl]
  refine ⟨rfl, ?_, ?_, ?_⟩
  · rintro id' ⟨-, c, hc, hcid⟩
    have hmem : (id', c) ∈ (d.store id cli'.abort.1 none).connections.rows :=
      Lib.Table.find?_eq_some _ |>.mp hc
    have hself : (id, cli'.abort.1) ∈ (d.store id cli'.abort.1 none).connections.rows :=
      Lib.Table.find?_eq_some _ |>.mp (session_store d id _ none)
    have hsingle := h.store hcli hidle.token none
    obtain ⟨-, rfl⟩ := Prod.mk.inj (hsingle.eq_of_mem hmem hself)
    exact hfile (hcid.symm.trans hidle.id)
  · show (d.db.reset file).statuses file ≠ []
    rw [hstatuses]
    exact fun hnil => hqueued (List.map_eq_nil_iff.mp hnil)
  · intro status hstatus
    have hmem : status ∈ (d.db.statuses file).map fun _ => (0 : Int) := hstatuses ▸ hstatus
    obtain ⟨-, -, rfl⟩ := List.mem_map.mp hmem
    rfl

/-- A call that finds no session, or one without an open file, gives nothing back. -/
theorem Single.holds_abort (h : Single token d) {conn : SessionId} {file : Nat}
    (hclosed : ∀ cli, d.session conn = some cli → cli.Closed) (hholds : d.Holds id file) :
    (Srv.abort conn d).1.Holds id file := by
  unfold Srv.abort withClient
  cases hcli : d.session conn with
  | none => exact hholds
  | some cli =>
    obtain ⟨hqueued, cli', hcli', hid⟩ := hholds
    obtain ⟨rfl, rfl⟩ := h.session_eq hcli hcli'
    rcases cli'.abort_spec with ⟨hsame, -⟩ | ⟨hreleased, -⟩
    · have habort : d.abort id cli' = d.store id cli' none := by
        simp only [Daemon.abort, hsame]
      show (d.abort id cli').Holds id file
      rw [habort]
      exact ⟨hqueued, cli', session_store d id cli' none, hid⟩
    · have hnone : cli'.abort.2 = none := by
        have hstreams := hclosed cli' hcli
        simp [ConnectedClient.abort, hstreams.1, hstreams.2]
      cases hreleased.symm.trans hnone

end Daemon

end MediaArchiver
