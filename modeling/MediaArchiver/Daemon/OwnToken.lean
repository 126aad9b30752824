/-
# MediaArchiver.Daemon.OwnToken -- a session among the sessions of others

The daemon has many clients. All that one of them can count on is that its token and its connection are its
own: nobody else authenticates with the token or over the connection, and nobody calls on the session that
goes by the token (`Foreign`). Then the token has one session at most, nobody else's stands at the connection,
and the session is as the client left it (`Own`), whatever the others call (`Own.foreign`).

They may take the session away. An id that the client's session was moved to by a late call can be that of
another connection by now, and who authenticates there overwrites it. The next time the client authenticates,
it gets a new one.
-/
import MediaArchiver.Daemon.InOrder

namespace MediaArchiver

open Connections (TokensUnique)

namespace DaemonEvent

/-- A client with another token calls on its own session, or authenticates, over another connection; or the
daemon does something of its own. -/
def Foreign (token : Text) (conn : SessionId) (d : Daemon) : DaemonEvent → Prop
  | .authenticate id _ token' => id ≠ conn ∧ token' ≠ token
  | .reset id _ | .abort id | .getNextFile id .. | .readChunk id _ | .postFile id ..
  | .writeChunk id .. => ∀ cli ∈ d.session id, cli.token ≠ token
  | .fileSystemChange .. | .moverTake | .moverFinish _ | .stop | .restart => True

/-- A call that the client makes before it posts a result: it reads, or authenticates with its token. -/
def Early (token : Text) : DaemonEvent → Prop
  | .readChunk .. => True
  | .authenticate _ _ token' => token' = token
  | _ => False

instance (token : Text) (conn : SessionId) (d : Daemon) : DecidablePred (Foreign token conn d)
  | .authenticate .. => inferInstanceAs (Decidable (_ ∧ _))
  | .reset id _ | .abort id | .getNextFile id .. | .readChunk id _ | .postFile id ..
  | .writeChunk id .. => inferInstanceAs (Decidable (∀ cli ∈ d.session id, cli.token ≠ token))
  | .fileSystemChange .. | .moverTake | .moverFinish _ | .stop | .restart => isTrue trivial

theorem Foreign.caller {token : Text} {conn : SessionId} {d : Daemon} {e : DaemonEvent} {id : SessionId}
    (h : e.Foreign token conn d) (he : e.caller = some id) {cli : ConnectedClient}
    (hcli : d.session id = some cli) : cli.token ≠ token := by
  cases e with
  | reset | abort | getNextFile | readChunk | postFile | writeChunk =>
    obtain rfl := Option.some.inj he
    exact h cli hcli
  | _ => cases he

end DaemonEvent

namespace Daemon

open DaemonEvent (Early Foreign)

/-- No two sessions go by one token. What stands at the client's connection goes by its token, and what goes
by its token has the property. -/
structure Own (token : Text) (conn : SessionId) (P : ConnectedClient → Prop) (d : Daemon) : Prop where
  unique : TokensUnique d.connections
  seat : ∀ r ∈ d.connections.rows, r.1 = conn → r.2.token = token
  session : ∀ r ∈ d.connections.rows, r.2.token = token → P r.2

variable {cfg : DaemonConfig} {d d' : Daemon} {e : DaemonEvent} {token : Text} {conn id : SessionId}
  {P Q : ConnectedClient → Prop} {cli cli' : ConnectedClient}

theorem Own.mono (h : Own token conn P d) (hPQ : ∀ cli, P cli → Q cli) : Own token conn Q d :=
  ⟨h.unique, h.seat, fun r hr htoken => hPQ _ (h.session r hr htoken)⟩

theorem Own.of_connections (h : Own token conn P d) (heq : d'.connections = d.connections) :
    Own token conn P d' := by
  refine ⟨?_, ?_, ?_⟩ <;> rw [heq]
  · exact h.unique
  · exact h.seat
  · exact h.session

/-- A daemon that has just been started knows nobody. -/
theorem own_start (token : Text) (conn : SessionId) (P : ConnectedClient → Prop) (db : Store) :
    Own token conn P (start db) :=
  ⟨tokensUnique_start db, fun _ hr => absurd hr List.not_mem_nil, fun _ hr => absurd hr List.not_mem_nil⟩

/-- What the client finds at its connection is its session. -/
theorem Own.of_session (h : Own token conn P d) (hcli : d.session conn = some cli) :
    cli.token = token ∧ P cli := by
  have hmem := d.connections.find?_eq_some.mp hcli
  have htoken := h.seat _ hmem rfl
  exact ⟨htoken, h.session _ hmem htoken⟩

/-- What a handler leaves behind takes the place of the session. If that goes by the token, it has the
property. -/
theorem Own.store (h : Own token conn P d) (hcli : d.session id = some cli) (hsame : cli'.token = cli.token)
    (hcli' : cli.token = token → P cli → P cli') (queued : Option FileToMove) :
    Own token conn P (d.store id cli' queued) := by
  have hmem := d.connections.find?_eq_some.mp hcli
  refine ⟨Connections.tokensUnique_insert h.unique hcli hsame, ?_, ?_⟩ <;> intro r hr <;>
    rcases (d.connections.mem_insert id cli' r).mp hr with rfl | ⟨hr, -⟩
  · exact fun hseat => hsame.trans (h.seat _ hmem hseat)
  · exact h.seat r hr
  · intro htoken
    have hbefore := hsame.symm.trans htoken
    exact hcli' hbefore (h.session _ hmem hbefore)
  · exact h.session r hr

/-- The session is not what it was, and no other goes by the token. -/
theorem Own.replace (h : Own token conn P d) (hcli : d.session conn = some cli)
    (hsame : cli'.token = cli.token) (hcli' : Q cli') (queued : Option FileToMove) :
    Own token conn Q (d.store conn cli' queued) := by
  have hmem := d.connections.find?_eq_some.mp hcli
  have htoken := h.seat _ hmem rfl
  refine ⟨Connections.tokensUnique_insert h.unique hcli hsame, ?_, ?_⟩ <;> intro r hr <;>
    rcases (d.connections.mem_insert conn cli' r).mp hr with rfl | ⟨hr, hne⟩
  · exact fun _ => hsame.trans htoken
  · exact h.seat r hr
  · exact fun _ => hcli'
  · intro htoken'
    exact absurd (congrArg Prod.fst (h.unique r hr _ hmem (htoken'.trans htoken.symm))) hne

/-- The client authenticates: its session may move, but it stays the same; or it is a new one. -/
theorem Own.authenticate (h : Own token conn P d) (cfg : DaemonConfig) (id : SessionId) (junk : Uninitialised)
    (hnew : P { ConnectedClient.fresh junk with token := token }) :
    Own token conn P ((machine cfg).step d (.authenticate id junk token)) := by
  refine ⟨Connections.tokensUnique_authenticate h.unique id junk token, ?_, ?_⟩ <;> intro r hr <;>
    rcases Connections.mem_authenticate.mp hr with rfl | ⟨⟨hr, hother⟩, -⟩
  · exact fun _ => Connections.token_bound ..
  · exact h.seat r hr
  · intro _
    show P (d.connections.bound junk token)
    rcases d.connections.bound_cases junk token with ⟨s, hs, htoken, hbound⟩ | ⟨-, hbound⟩
    · rw [hbound]
      exact h.session s hs htoken
    · rw [hbound]
      exact hnew
  · exact fun htoken => absurd htoken hother

/-- Another client authenticates. -/
theorem Own.authenticate_foreign (h : Own token conn P d) (cfg : DaemonConfig) (hid : id ≠ conn)
    (junk : Uninitialised) {token' : Text} (hne : token' ≠ token) :
    Own token conn P ((machine cfg).step d (.authenticate id junk token')) := by
  refine ⟨Connections.tokensUnique_authenticate h.unique id junk token', ?_, ?_⟩ <;> intro r hr <;>
    rcases Connections.mem_authenticate.mp hr with rfl | ⟨⟨hr, -⟩, -⟩
  · exact fun hseat => absurd hseat hid
  · exact h.seat r hr
  · exact fun htoken => absurd ((Connections.token_bound ..).symm.trans htoken) hne
  · exact h.session r hr

/-- A call over any connection keeps what it keeps of the session. -/
theorem Own.call (h : Own token conn P d) (cfg : DaemonConfig) (he : e.caller = some id)
    (hleaves : ∀ cli, d.session id = some cli → cli.token = token → P cli → P (cli.leaves cfg d e).1) :
    Own token conn P ((machine cfg).step d e) := by
  rcases step_of_caller cfg he with ⟨-, heq⟩ | ⟨cli, db, hcli, heq⟩
  · rw [heq]
    exact h
  · rw [heq]
    exact (h.store hcli (cli.token_leaves cfg d e) (hleaves cli hcli) (cli.leaves cfg d e).2).of_connections rfl

/-- Nothing that others do gets at the session. -/
theorem Own.foreign (h : Own token conn P d) (cfg : DaemonConfig) (he : e.Foreign token conn d) :
    Own token conn P ((machine cfg).step d e) := by
  cases hcaller : e.caller with
  | some id => exact h.call cfg hcaller fun cli hcli htoken => absurd htoken (he.caller hcaller hcli)
  | none =>
    cases e with
    | authenticate id junk token' => exact h.authenticate_foreign cfg he.1 junk he.2
    | fileSystemChange | moverTake | moverFinish | stop =>
      exact h.of_connections (connections_background cfg trivial)
    | restart => exact own_start token conn P d.db
    | _ => cases hcaller

/-- The client's own calls keep what a read keeps and a new session has. -/
theorem Own.early (h : Own token conn P d) (cfg : DaemonConfig) (he : e.Early token)
    (hread : ∀ cli avail, P cli → P (cli.readChunk cfg avail).1)
    (hnew : ∀ junk, P { ConnectedClient.fresh junk with token := token }) :
    Own token conn P ((machine cfg).step d e) := by
  cases e with
  | readChunk id avail => exact h.call cfg rfl fun cli _ _ => hread cli avail
  | authenticate id junk token' =>
    obtain rfl := he
    exact h.authenticate cfg id junk (hnew junk)
  | _ => exact he.elim

/-- If the session is given a file, it has it open, at its start. -/
theorem Own.getNextFile (h : Own token conn P d) {limit : LimitOne} {src : SourceAnswers}
    {filter : MediaFileRequirements} {settings : MediaEncoderSettings}
    (hget : (Srv.getNextFile cfg conn limit src filter d).2 = .ok settings)
    (hlength : 0 < settings.fileLength) :
    ∃ name content, src.content name = some content ∧
      Own token conn (fun cli => cli.inFile = .opened content)
        (Srv.getNextFile cfg conn limit src filter d).1 := by
  unfold Srv.getNextFile withClient at hget ⊢
  cases hcli : d.session conn with
  | none =>
    rw [hcli] at hget
    cases hget
  | some cli =>
    simp only [hcli] at hget ⊢
    obtain ⟨name, content, hcontent, hopened, htoken⟩ := cli.opened_getNextFile hget hlength
    have hstore := h.replace (Q := fun cli => cli.inFile = .opened content) hcli htoken hopened none
    exact ⟨name, content, hcontent, hstore.of_connections rfl⟩

end Daemon

end MediaArchiver
