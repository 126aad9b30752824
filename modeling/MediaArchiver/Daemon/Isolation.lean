/-
# MediaArchiver.Daemon.Isolation -- clients that share a daemon

Several clients work for one daemon, and the daemon tells them apart by their tokens alone. A token is
the first number that a client's generator yields. The generator is seeded from the random device, and
then once more with the time in seconds, so that nothing is left of the first seed: clients started in
one second have one token. Whoever of them authenticates next is given the other one's session with the
file in it.

A session stays with its client in every run exactly if no two clients drew the same number
(`isolated_iff`).
-/
import Mathlib.Logic.Function.Basic
import MediaArchiver.Daemon.Custody
import MediaArchiver.Daemon.OneClient

namespace MediaArchiver

open Lib (Machine)
open Connections (TokensUnique)

universe u

/-- The clients that were constructed, each at its time in seconds. `draw` is the number that the
distribution draws first from the generator, by the last seed of that. -/
structure Instances (ι : Type u) where
  constructed : ι → Nat
  draw : UInt32 → Nat

namespace Instances

variable {ι : Type u} (p : Instances ι)

/-- `m_token`. Only the second seed counts, `time(nullptr)` in the width of the generator. -/
def token (i : ι) : Nat := p.draw (UInt32.ofNat (p.constructed i))

/-- What `doAuth` sends. -/
def sent (i : ι) : Text := (toString (p.token i)).toList

theorem sent_eq_iff {i j : ι} : p.sent i = p.sent j ↔ p.token i = p.token j := by
  refine ⟨fun h => ?_, congrArg fun n => (toString n).toList⟩
  have hdigits : Nat.toDigits 10 (p.token i) = Nat.toDigits 10 (p.token j) := by
    rw [← Nat.toList_repr, ← Nat.toList_repr]
    exact h
  rw [← Nat.ofDigitChars_ten_toDigits (n := p.token i), hdigits, Nat.ofDigitChars_ten_toDigits]

end Instances

/-- What happens to a daemon with several clients: one of them authenticates, or anything else. -/
inductive SharedEvent (ι : Type u) where
  | authenticate (i : ι) (id : SessionId) (junk : Uninitialised)
  | other (e : DaemonEvent) (he : e.caller.isSome ∨ e.Background ∨ e = .restart)

/-- The daemon, and for each connection the client that authenticated over it last. -/
structure Shared (ι : Type u) where
  daemon : Daemon
  owner : SessionId → Option ι

namespace Shared

variable {ι : Type u} {cfg : DaemonConfig} {p : Instances ι} {s : Shared ι}

/-- A daemon just started. -/
def start (db : Store) : Shared ι := ⟨Daemon.start db, fun _ => none⟩

/-- The daemon with its clients as a machine. -/
def machine (cfg : DaemonConfig) (p : Instances ι) : Machine (Shared ι) (SharedEvent ι) where
  step s
    | .authenticate i id junk =>
        ⟨(Daemon.machine cfg).step s.daemon (.authenticate id junk (p.sent i)),
          Function.update s.owner id (some i)⟩
    | .other e _ => { s with daemon := (Daemon.machine cfg).step s.daemon e }

/-- A session with a file, open or not, that a client gets by authenticating was its own. -/
def Isolated (cfg : DaemonConfig) (p : Instances ι) (s : Shared ι) : Prop :=
  ∀ j id junk, ∀ r ∈ s.daemon.connections.rows,
    Custody.busy r.2 = true ∨ r.2.originalFileId ≠ 0 →
    ((machine cfg p).step s (.authenticate j id junk)).daemon.session id = some r.2 →
    s.owner r.1 = some j

/-! ## A session has the token of its client -/

/-- Every session belongs to a client, and has its token. -/
def Owned (p : Instances ι) (s : Shared ι) : Prop :=
  ∀ r ∈ s.daemon.connections.rows, ∃ i, s.owner r.1 = some i ∧ r.2.token = p.sent i

theorem owned_start (db : Store) : Owned p (start db) := by
  intro r hr
  cases hr

theorem Owned.step (h : Owned p s) (e : SharedEvent ι) : Owned p ((machine cfg p).step s e) := by
  intro r hr
  cases e with
  | authenticate i id junk =>
    show ∃ j, Function.update s.owner id (some i) r.1 = some j ∧ r.2.token = p.sent j
    rcases Connections.mem_authenticate.mp hr with rfl | ⟨⟨hr, -⟩, hne⟩
    · exact ⟨i, Function.update_self .., Connections.token_bound ..⟩
    · rw [Function.update_of_ne hne]
      exact h r hr
  | other e he =>
    rcases he with hcaller | hback | rfl
    · obtain ⟨id, hcaller⟩ := Option.isSome_iff_exists.mp hcaller
      refine Daemon.forall_sessions_of_caller hcaller h (fun cli hcli => ?_) r hr
      obtain ⟨i, howner, htoken⟩ := h (id, cli) (s.daemon.connections.find?_eq_some.mp hcli)
      exact ⟨i, howner, (cli.token_leaves cfg s.daemon e).trans htoken⟩
    · have hsame := Daemon.connections_background (d := s.daemon) cfg hback
      exact h r (hsame ▸ hr)
    · cases hr

theorem owned_run (cfg : DaemonConfig) (p : Instances ι) (db : Store) (es : List (SharedEvent ι)) :
    Owned p ((machine cfg p).run (start db) es) :=
  (machine cfg p).invariant_always (fun _ e h => h.step e) (owned_start db) es

/-- A session that a client gets by authenticating has the token of that client, and so has its owner. -/
theorem Owned.shares (h : Owned p s) {j : ι} {id : SessionId} {junk : Uninitialised}
    {r : SessionId × ConnectedClient} (hr : r ∈ s.daemon.connections.rows)
    (hmoved : ((machine cfg p).step s (.authenticate j id junk)).daemon.session id = some r.2) :
    ∃ i, s.owner r.1 = some i ∧ p.token i = p.token j := by
  obtain ⟨i, howner, htoken⟩ := h r hr
  have hbound := Connections.find?_authenticate s.daemon.connections id junk (p.sent j)
  have hsent : r.2.token = p.sent j :=
    Option.some.inj (hbound.symm.trans hmoved) ▸ Connections.token_bound ..
  exact ⟨i, howner, p.sent_eq_iff.mp (htoken.symm.trans hsent)⟩

/-! ## Two clients with one token -/

/-- The catalogue with one file that waits. -/
def oneFile : Store := (Store.empty.addFile (some ⟨"a.mov".toList, 1⟩) none true).1

/-- A client authenticates and fetches the file. -/
def takes (i : ι) : List (SharedEvent ι) :=
  [.authenticate i 1 ⟨0, .zero⟩, .other (Daemon.fetches 1) (Or.inl rfl)]

/-- After that its session holds the file. -/
theorem session_takes (cfg : DaemonConfig) (p : Instances ι) (i : ι) :
    ∃ cli, ((machine cfg p).run (start oneFile) (takes i)).daemon.session 1 = some cli
      ∧ Custody.busy cli = true ∧ cli.token = p.sent i := by
  let cli : ConnectedClient := { ConnectedClient.fresh ⟨0, .zero⟩ with token := p.sent i }
  let d := (Daemon.machine cfg).step (Daemon.start oneFile) (.authenticate 1 ⟨0, .zero⟩ (p.sent i))
  let src : SourceAnswers := ⟨fun _ => some [7], fun _ => some .zero⟩
  have hcli : d.session 1 = some cli := Connections.find?_authenticate ..
  obtain ⟨db, hdb⟩ : ∃ db, oneFile.getNextFile .first ⟨[], 0⟩ = (db, some (1, ⟨"a.mov".toList, 1⟩)) :=
    ⟨_, rfl⟩
  have hread : ConnectedClient.Readable src ⟨"a.mov".toList, 1⟩ := ⟨by decide, rfl, rfl⟩
  obtain ⟨cli', hget, hserves, htoken, -⟩ := cli.getNextFile_of_readable cfg rfl rfl hdb hread
  have hstep : ((Daemon.machine cfg).step d (Daemon.fetches 1)).connections
      = d.connections.insert 1 cli' := by
    show (Daemon.step cfg d (.getNextFile 1 .first src ⟨[], 0⟩)).connections = _
    have hget' : cli.getNextFile cfg d.stopRequested d.db .first src ⟨[], 0⟩ = _ := hget
    simp only [Daemon.step, hcli, Daemon.call, hget', Daemon.store]
  refine ⟨cli', ?_, by rw [Custody.busy, hserves.isOpen, Bool.true_or], htoken⟩
  show ((Daemon.machine cfg).step d (Daemon.fetches 1)).connections.find? 1 = some cli'
  rw [hstep]
  exact Lib.Table.find?_insert_self ..

/-- Another client with the same number gets the session. -/
theorem not_isolated (cfg : DaemonConfig) {i j : ι} (hne : i ≠ j) (hsame : p.token i = p.token j)
    (hu : TokensUnique s.daemon.connections) {cli : ConnectedClient}
    (hcli : s.daemon.session 1 = some cli) (hbusy : Custody.busy cli = true)
    (htoken : cli.token = p.sent i) (howner : s.owner 1 = some i) : ¬ Isolated cfg p s := by
  have hmem : (1, cli) ∈ s.daemon.connections.rows := s.daemon.connections.find?_eq_some.mp hcli
  have hsent : cli.token = p.sent j := htoken.trans (p.sent_eq_iff.mpr hsame)
  have hmoved : (Connections.authenticate s.daemon.connections 2 ⟨0, .zero⟩ (p.sent j)).find? 2
      = some cli := by
    rw [Connections.find?_authenticate, ← hsent, Connections.bound_of_mem hu _ hmem]
  intro h
  exact hne (Option.some.inj (howner.symm.trans (h j 2 ⟨0, .zero⟩ (1, cli) hmem (Or.inl hbusy) hmoved)))

/-- In every run every session stays with its client, exactly if no two clients drew one number. -/
theorem isolated_iff (cfg : DaemonConfig) (p : Instances ι) :
    (∀ db es, Isolated cfg p ((machine cfg p).run (start db) es)) ↔
      ∀ i j, p.draw (UInt32.ofNat (p.constructed i)) = p.draw (UInt32.ofNat (p.constructed j)) →
        i = j := by
  constructor
  · intro h i j hsame
    by_contra hne
    obtain ⟨cli, hcli, hbusy, htoken⟩ := session_takes cfg p i
    have hu := Daemon.tokensUnique_run cfg oneFile
      [.authenticate 1 ⟨0, .zero⟩ (p.sent i), Daemon.fetches 1]
    exact not_isolated cfg hne hsame hu hcli hbusy htoken rfl (h oneFile (takes i))
  · intro hdistinct db es j id junk r hr _ hmoved
    obtain ⟨i, howner, htoken⟩ := (owned_run cfg p db es).shares hr hmoved
    rw [howner, hdistinct i j htoken]

/-- Two clients are started in the same second, and the second one gets the first one's file. -/
theorem isolated_same_second :
    let p : Instances Bool := ⟨fun _ => 1700000000, fun seed => seed.toNat % 2 ^ 31⟩
    ¬ Isolated gCfg p ((machine gCfg p).run (start .empty)
      [.other (Daemon.discovers "a.mov".toList []) (Or.inr (Or.inl trivial)),
       .authenticate false 1 ⟨0, .zero⟩, .other (Daemon.fetches 1) (Or.inl rfl)]) := by
  intro p
  have hu := Daemon.tokensUnique_run gCfg .empty
    [Daemon.discovers "a.mov".toList [], .authenticate 1 ⟨0, .zero⟩ (p.sent false), Daemon.fetches 1]
  have hne : false ≠ true := by decide
  exact not_isolated gCfg hne rfl hu rfl rfl rfl rfl

end Shared

end MediaArchiver
