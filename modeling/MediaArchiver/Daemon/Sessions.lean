/-
# MediaArchiver.Daemon.Sessions -- what every reachable daemon knows about its sessions

Two invariants of whole runs.

The tokens of the sessions are pairwise different, in every run. So the law of authentication
(`Connections.rebinds_iff`) holds of every reachable daemon, with its one exception
(`authenticate_rebinds_iff`).

Whatever a session or the mover holds is catalogued, under the path the session or the archive's name
goes by, and the tables are in order (`Known`). This needs one assumption. A session that
authenticates with an unknown token is a new object whose id nobody initialises; what stands there by
accident would be taken for an id of the catalogue. `StartsEmpty` says that it is zero. Where it may be
another one (`strays`), nothing is known of what is held under these ids, and the tables stay in order as
long as no archive is recorded for one that is not catalogued (`StaysOrdered`).
-/
import MediaArchiver.Store.WellFormed
import MediaArchiver.Daemon.System

namespace MediaArchiver

open Lib (Machine Table WriteAnswer)
open Connections (TokensUnique Rebinds)
open ConnectedClient (SameFile Idle HandsOver Readable)

namespace Store

theorem wellFormed_finishMove {db : Store} (hwf : db.WellFormed) (ftm : FileToMove)
    (outcome : MoveOutcome)
    (hcat : ftm.result.fileLength ≠ 0 → db.sourcefiles.HasKey ftm.result.originalFileId) :
    (db.finishMove ftm outcome).WellFormed := by
  obtain ⟨file, hfile, hid, ⟨rfl, -⟩ | ⟨-, -, what, rfl⟩⟩ := ftm.record_spec outcome
  · simp only [finishMove, hfile]
    exact wellFormed_addEncodedFile hwf _ fun hpos => hcat (UInt64.ne_of_lt hpos).symm
  · simp only [finishMove, hfile]
    exact wellFormed_addEncodedFile hwf _ fun hpos => absurd hpos (UInt64.lt_irrefl 0)

end Store

namespace Daemon

variable {cfg : DaemonConfig} {d d' : Daemon} {e : DaemonEvent} {strays : List Nat}

@[simp] theorem connections_store (d : Daemon) (id : SessionId) (cli : ConnectedClient)
    (queued : Option FileToMove) :
    (d.store id cli queued).connections = d.connections.insert id cli := rfl

@[simp] theorem filesToMove_store (d : Daemon) (id : SessionId) (cli : ConnectedClient)
    (queued : Option FileToMove) :
    (d.store id cli queued).filesToMove = d.filesToMove ++ queued.toList := rfl

@[simp] theorem moving_store (d : Daemon) (id : SessionId) (cli : ConnectedClient)
    (queued : Option FileToMove) : (d.store id cli queued).moving = d.moving := rfl

/-! ## Tokens -/

theorem Does.tokensUnique (h : Does cfg d e d') (hu : TokensUnique d.connections) :
    TokensUnique d'.connections := by
  cases h with
  | nothing => exact hu
  | authenticate => exact Connections.tokensUnique_authenticate hu _ _ _
  | keep hcli same => exact Connections.tokensUnique_insert hu hcli same.token
  | forget hcli _ _ idle => exact Connections.tokensUnique_insert hu hcli idle.token
  | reserve hcli _ _ _ _ token => exact Connections.tokensUnique_insert hu hcli token
  | strand hcli _ _ _ _ _ idle => exact Connections.tokensUnique_insert hu hcli idle.token
  | abort hcli _ idle => exact Connections.tokensUnique_insert hu hcli idle.token
  | postFile hcli _ hands => exact Connections.tokensUnique_insert hu hcli hands.token
  | writeChunk hcli _ hands => exact Connections.tokensUnique_insert hu hcli hands.token
  | addFile => exact hu
  | drop => exact hu
  | take => exact hu
  | finish => exact hu
  | stop => exact hu
  | restart =>
    intro r hr
    exact absurd hr List.not_mem_nil

theorem tokensUnique_start (db : Store) : TokensUnique (start db).connections := by
  intro r hr
  exact absurd hr List.not_mem_nil

theorem tokensUnique_run (cfg : DaemonConfig) (db : Store) (es : List DaemonEvent) :
    TokensUnique ((machine cfg).run (start db) es).connections :=
  (machine cfg).invariant_always (P := fun d => TokensUnique d.connections)
    (fun d e h => (step_does cfg d e).tokensUnique h) (tokensUnique_start db) es

/-- In every reachable daemon a client's authentication brings back its own session and leaves every
other session alone, exactly if no other token's session stands at the id of the call. -/
theorem authenticate_rebinds_iff (cfg : DaemonConfig) (db : Store) (es : List DaemonEvent)
    (id : SessionId) (junk : Uninitialised) (token : Text) :
    Rebinds ((machine cfg).run (start db) es).connections id junk token ↔
      ∀ cli, ((machine cfg).run (start db) es).session id = some cli → cli.token = token :=
  Connections.rebinds_iff (tokensUnique_run cfg db es) id junk token

/-- A connection ends while its client downloads a file, and its id is used again. -/
theorem authenticate_overwrites :
    ¬ Rebinds ((machine gCfg).run (start .empty)
      [discovers "a.mov".toList [], .authenticate 1 ⟨0, .zero⟩ "first".toList,
       fetches 1]).connections
      1 ⟨0, .zero⟩ "second".toList := by
  intro h
  have htoken := (Connections.rebinds_iff (tokensUnique_run _ _ _) _ _ _).mp h _ rfl
  exact absurd htoken (by decide)

/-! ## Everything held is catalogued -/

/-- The entries of the mover, the one it works on first. -/
def entries (d : Daemon) : List FileToMove := d.moving.toList ++ d.filesToMove

/-- A new session holds no file. If the token is known, the session is not a new one. -/
def StartsEmpty (d : Daemon) : DaemonEvent → Prop
  | .authenticate _ junk token =>
      (∀ r ∈ d.connections.rows, r.2.token ≠ token) → junk.originalFileId = 0
  | _ => True

instance (d : Daemon) : DecidablePred (StartsEmpty d)
  | .authenticate .. => inferInstanceAs (Decidable ((∀ r ∈ _, _) → _))
  | .reset .. | .abort .. | .getNextFile .. | .readChunk .. | .postFile .. | .writeChunk ..
  | .fileSystemChange .. | .moverTake | .moverFinish _ | .stop | .restart =>
      inferInstanceAs (Decidable True)

/-- A new session goes by none of the ids but perhaps the strays, and for those an archive is recorded only if
they are catalogued. -/
def StaysOrdered (strays : List Nat) (d : Daemon) : DaemonEvent → Prop
  | .authenticate _ junk token =>
      (∀ r ∈ d.connections.rows, r.2.token ≠ token) →
        junk.originalFileId = 0 ∨ junk.originalFileId ∈ strays
  | .moverFinish _ =>
      ∀ ftm ∈ d.moving, ftm.result.originalFileId ∈ strays → ftm.result.fileLength ≠ 0 →
        d.db.sourcefiles.HasKey ftm.result.originalFileId
  | _ => True

theorem StartsEmpty.staysOrdered (h : StartsEmpty d e) : StaysOrdered [] d e := by
  cases e with
  | authenticate id junk token => exact fun hnew => Or.inl (h hnew)
  | moverFinish outcome => exact fun ftm _ hstray => absurd hstray List.not_mem_nil
  | _ => trivial

/-- The tables are in order, and every id a session or an entry of the mover goes by is that of a
catalogue row with the matching path, or a stray. -/
structure Known (cfg : DaemonConfig) (strays : List Nat) (d : Daemon) : Prop where
  tables : d.db.WellFormed
  sessions : ∀ r ∈ d.connections.rows, r.2.originalFileId ≠ 0 → r.2.originalFileId ∉ strays →
    ∃ file, (r.2.originalFileId, file) ∈ d.db.sourcefiles.rows ∧ file.path = r.2.originalFileName
  entries : ∀ ftm ∈ d.entries, ftm.result.originalFileId ≠ 0 → ftm.result.originalFileId ∉ strays →
    ∃ file, (ftm.result.originalFileId, file) ∈ d.db.sourcefiles.rows
      ∧ ftm.result.fileName = cfg.getArchivedFileName file.path
  moving : ∀ ftm, d.moving = some ftm → ftm.result.originalFileId ≠ 0

/-- The catalogue only grows. -/
theorem Does.rows_keep (h : Does cfg d e d') {r : Nat × SourceFile}
    (hr : r ∈ d.db.sourcefiles.rows) : r ∈ d'.db.sourcefiles.rows := by
  cases h with
  | reserve _ _ _ hdb =>
    show r ∈ (_ : Store).sourcefiles.rows
    rw [(Store.reserves_of_getNextFile hdb).sourcefiles]
    exact hr
  | strand _ _ _ _ hdb =>
    show r ∈ (_ : Store).sourcefiles.rows
    rw [(Store.reserves_of_getNextFile hdb).sourcefiles]
    exact hr
  | addFile => exact d.db.rows_addFile _ _ _ hr
  | finish =>
    show r ∈ (d.db.finishMove _ _).sourcefiles.rows
    rw [Store.sourcefiles_finishMove]
    exact hr
  | nothing => exact hr
  | authenticate => exact hr
  | keep => exact hr
  | forget => exact hr
  | abort => exact hr
  | postFile => exact hr
  | writeChunk => exact hr
  | drop => exact hr
  | take => exact hr
  | stop => exact hr
  | restart => exact hr

theorem known_start (cfg : DaemonConfig) {db : Store} (hwf : db.WellFormed) :
    Known cfg strays (start db) where
  tables := hwf
  sessions := fun _ hr => absurd hr List.not_mem_nil
  entries := fun _ hftm => absurd hftm List.not_mem_nil
  moving := nofun

/-- Replacing one session, and queueing an entry for what it held. -/
theorem Known.store (h : Known cfg strays d) {id : SessionId} {cli' : ConnectedClient}
    {queued : Option FileToMove}
    (hcli : cli'.originalFileId ≠ 0 → cli'.originalFileId ∉ strays → ∃ file,
      (cli'.originalFileId, file) ∈ d.db.sourcefiles.rows ∧ file.path = cli'.originalFileName)
    (hqueued : ∀ ftm ∈ queued, ftm.result.originalFileId ≠ 0 → ftm.result.originalFileId ∉ strays →
      ∃ file, (ftm.result.originalFileId, file) ∈ d.db.sourcefiles.rows
        ∧ ftm.result.fileName = cfg.getArchivedFileName file.path) :
    Known cfg strays (d.store id cli' queued) := by
  refine ⟨h.tables, ?_, ?_, h.moving⟩
  · intro r hr
    rcases (d.connections.mem_insert id cli' r).mp hr with rfl | ⟨hr, _⟩
    · exact hcli
    · exact h.sessions r hr
  · intro ftm hftm
    simp only [Daemon.entries, moving_store, filesToMove_store, ← List.append_assoc] at hftm
    rcases List.mem_append.mp hftm with hftm | hftm
    · exact h.entries ftm hftm
    · exact hqueued ftm (by simpa using hftm)

/-- What a session holds is catalogued. -/
theorem Known.session (h : Known cfg strays d) {id : SessionId} {cli : ConnectedClient}
    (hcli : d.session id = some cli) (hne : cli.originalFileId ≠ 0) (hstray : cli.originalFileId ∉ strays) :
    ∃ file, (cli.originalFileId, file) ∈ d.db.sourcefiles.rows ∧ file.path = cli.originalFileName :=
  h.sessions (id, cli) (d.connections.find?_eq_some.mp hcli) hne hstray

theorem Known.handOver (h : Known cfg strays d) {id : SessionId} {cli cli' : ConnectedClient}
    {result : EncodingResultInfo} {move : FileToMove} (hcli : d.session id = some cli)
    (hands : HandsOver cli cfg result cli' move) : Known cfg strays (d.store id cli' (some move)) := by
  refine h.store (fun hne => absurd hands.id hne) ?_
  intro ftm hftm hne hstray
  obtain rfl : move = ftm := by simpa using hftm
  rw [hands.moveId] at hne hstray ⊢
  obtain ⟨file, hfile, hpath⟩ := h.session hcli hne hstray
  exact ⟨file, hfile, by rw [hands.moveName, hpath]⟩

/-- Another database with a catalogue that is no smaller. -/
theorem Known.withDb (h : Known cfg strays d) {db' : Store} (hwf : db'.WellFormed)
    (hrows : ∀ r ∈ d.db.sourcefiles.rows, r ∈ db'.sourcefiles.rows) :
    Known cfg strays { d with db := db' } := by
  refine ⟨hwf, ?_, ?_, h.moving⟩
  · intro r hr hne hstray
    obtain ⟨file, hfile, hpath⟩ := h.sessions r hr hne hstray
    exact ⟨file, hrows _ hfile, hpath⟩
  · intro ftm hftm hne hstray
    obtain ⟨file, hfile, hname⟩ := h.entries ftm hftm hne hstray
    exact ⟨file, hrows _ hfile, hname⟩

theorem Does.known (hdoes : Does cfg d e d') (h : Known cfg strays d) (hordered : StaysOrdered strays d e) :
    Known cfg strays d' := by
  have hrows : ∀ r ∈ d.db.sourcefiles.rows, r ∈ d'.db.sourcefiles.rows := fun r hr =>
    hdoes.rows_keep hr
  cases hdoes with
  | nothing => exact h
  | @authenticate id junk token =>
    have hsessions := Connections.forall_authenticate
      (Q := fun cli => cli.originalFileId ≠ 0 → cli.originalFileId ∉ strays →
        ∃ file, (cli.originalFileId, file) ∈ d.db.sourcefiles.rows ∧ file.path = cli.originalFileName)
      h.sessions id junk token fun hnew hne hstray => ((hordered hnew).elim hne hstray).elim
    exact ⟨h.tables, hsessions, h.entries, h.moving⟩
  | keep hcli same =>
    refine h.store ?_ (by simp)
    rw [same.id, same.name]
    exact h.session hcli
  | forget hcli _ _ idle => exact h.store (fun hne => absurd idle.id hne) (by simp)
  | @reserve id limit src filter cli cli' db' srcId file hcli _ _ hdb _ _ hid hname _ =>
    have hwf := Store.wellFormed_getNextFile h.tables limit filter
    rw [hdb] at hwf
    refine (h.withDb hwf hrows).store ?_ (by simp)
    intro _ _
    refine ⟨⟨file.fileName, file.fileSize⟩, ?_, hname.symm⟩
    rw [hid]
    exact hrows _ (Store.reserves_of_getNextFile hdb).catalogued
  | @strand id limit src filter cli cli' db' srcId file hcli _ _ _ hdb _ idle =>
    have hwf := Store.wellFormed_getNextFile h.tables limit filter
    rw [hdb] at hwf
    exact (h.withDb hwf hrows).store (fun hne => absurd idle.id hne) (by simp)
  | @abort id cli cli' hcli _ idle =>
    exact (h.withDb (Store.wellFormed_reset h.tables cli.originalFileId) hrows).store
      (fun hne => absurd idle.id hne) (by simp)
  | postFile hcli _ hands => exact h.handOver hcli hands
  | writeChunk hcli _ hands => exact h.handOver hcli hands
  | addFile => exact h.withDb (Store.wellFormed_addFile h.tables _ _ _) hrows
  | @drop ftm rest hqueue _ =>
    refine ⟨h.tables, h.sessions, ?_, h.moving⟩
    intro m hm
    apply h.entries m
    simp only [Daemon.entries, hqueue, List.mem_append, List.mem_cons] at hm ⊢
    rcases hm with hm | hm
    · exact Or.inl hm
    · exact Or.inr (Or.inr hm)
  | @take ftm rest hmoving hqueue hid =>
    refine ⟨h.tables, h.sessions, ?_, ?_⟩
    · intro m hm
      apply h.entries m
      simpa [Daemon.entries, hqueue, hmoving] using hm
    · rintro m ⟨⟩
      exact hid
  | @finish outcome ftm hmoving =>
    have hne := h.moving ftm hmoving
    have hmem : ftm ∈ d.entries := by simp [Daemon.entries, hmoving]
    have hcat : ftm.result.fileLength ≠ 0 → d.db.sourcefiles.HasKey ftm.result.originalFileId := by
      intro hlength
      by_cases hstray : ftm.result.originalFileId ∈ strays
      · exact hordered ftm hmoving hstray hlength
      · obtain ⟨file, hfile, -⟩ := h.entries ftm hmem hne hstray
        exact ⟨file, hfile⟩
    have hwf := Store.wellFormed_finishMove h.tables ftm outcome hcat
    have hdb := h.withDb hwf hrows
    refine ⟨hwf, hdb.sessions, ?_, nofun⟩
    intro m hm
    apply hdb.entries m
    simp only [Daemon.entries, Option.toList_none, List.nil_append] at hm ⊢
    exact List.mem_append.mpr (Or.inr hm)
  | stop => exact ⟨h.tables, h.sessions, h.entries, h.moving⟩
  | restart => exact known_start cfg h.tables

end Daemon

end MediaArchiver
