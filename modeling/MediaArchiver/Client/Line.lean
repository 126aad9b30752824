/-
# MediaArchiver.Client.Line -- what a call changes of the line

One lemma for each way in which the line is used: what is left of the object, what is recorded, and
whether the process survives it. After them nobody looks into `call` and `checkCreateRpc` any more.

A call never changes the object, and it needs one. The check provides one: the one that is there, if that
is connected, or a new one; if none can be created, the old one stays.
-/
import MediaArchiver.Client.Process

namespace MediaArchiver

universe u

namespace Line

variable {σ : Type u} {α : Type} {r : Remote σ} {l l' : Line σ}

/-- An object that is there after the check is the one that was there, connected, or a new one. -/
theorem checkCreateRpc_ok (h : l.checkCreateRpc r = (l', .ok ())) :
    ∃ rpc, l'.rpc = some rpc ∧
      ((l' = l ∧ r.isConnected rpc.conn l.server = true) ∨
        ((∀ old, l.rpc = some old → r.isConnected old.conn l.server = false) ∧ ∃ s,
          r.createServer l.server = (s, .ok rpc.conn)
            ∧ l' = { l with server := s, rpc := some ⟨rpc.conn, false⟩ })) := by
  have hcreate : ∀ {l₁ : Line σ}, l.createRpc r = (l₁, .ok ()) → ∃ conn s,
      r.createServer l.server = (s, .ok conn)
        ∧ l₁ = { l with server := s, rpc := some ⟨conn, false⟩ } := by
    intro l₁ hl₁
    unfold createRpc at hl₁
    split at hl₁
    · rename_i s conn hserver
      obtain ⟨rfl, -⟩ := Prod.mk.inj hl₁
      exact ⟨conn, s, hserver, rfl⟩
    · cases (Prod.mk.inj hl₁).2
  unfold checkCreateRpc at h
  cases hrpc : l.rpc with
  | none =>
    rw [hrpc] at h
    obtain ⟨conn, s, hserver, rfl⟩ := hcreate h
    exact ⟨_, rfl, Or.inr ⟨nofun, s, hserver, rfl⟩⟩
  | some rpc =>
    simp only [hrpc] at h
    by_cases hconn : r.isConnected rpc.conn l.server = true
    · rw [if_pos hconn] at h
      obtain ⟨rfl, -⟩ := Prod.mk.inj h
      exact ⟨rpc, hrpc, Or.inl ⟨rfl, hconn⟩⟩
    · rw [if_neg hconn] at h
      obtain ⟨conn, s, hserver, rfl⟩ := hcreate h
      refine ⟨_, rfl, Or.inr ⟨?_, s, hserver, rfl⟩⟩
      rintro old ⟨⟩
      simpa using hconn

/-- A check that threw has changed nothing on the client's side. -/
theorem checkCreateRpc_error {e : Exn} (h : l.checkCreateRpc r = (l', .error e)) :
    (∀ old, l.rpc = some old → r.isConnected old.conn l.server = false) ∧ ∃ s,
      r.createServer l.server = (s, .error e) ∧ l' = { l with server := s } := by
  have hcreate : l.createRpc r = (l', .error e) → ∃ s,
      r.createServer l.server = (s, .error e) ∧ l' = { l with server := s } := by
    intro hl
    unfold createRpc at hl
    split at hl
    · cases (Prod.mk.inj hl).2
    · rename_i s e' hserver
      obtain ⟨rfl, he⟩ := Prod.mk.inj hl
      obtain rfl := Except.error.inj he
      exact ⟨s, hserver, rfl⟩
  unfold checkCreateRpc at h
  cases hrpc : l.rpc with
  | none =>
    rw [hrpc] at h
    exact ⟨nofun, hrpc ▸ hcreate h⟩
  | some rpc =>
    simp only [hrpc] at h
    by_cases hconn : r.isConnected rpc.conn l.server = true
    · rw [if_pos hconn] at h
      cases (Prod.mk.inj h).2
    · rw [if_neg hconn] at h
      refine ⟨?_, hrpc ▸ hcreate h⟩
      rintro old ⟨⟩
      simpa using hconn

/-- A call on an object goes to the server, and is recorded. -/
theorem call_of_some {function : RpcFunction} {seen : α → Bool}
    {f : SessionId → σ → σ × Except Exn α} {rpc : Rpc} (hrpc : l.rpc = some rpc) :
    l.call function seen f =
      ({ l with
         server := (f rpc.conn l.server).1
         calls := l.calls ++
           [⟨function, rpc.authenticated, (f rpc.conn l.server).2.toOption.map seen⟩] },
        (f rpc.conn l.server).2) := by
  simp only [call, hrpc]

/-- Without an object a call is the end. -/
theorem call_of_none {function : RpcFunction} {seen : α → Bool}
    {f : SessionId → σ → σ × Except Exn α} (hrpc : l.rpc = none) :
    l.call function seen f
      = ({ l with crashed := true }, .error (.runtimeError "null pointer".toList)) := by
  simp only [call, hrpc]

section Call

variable {function : RpcFunction} {seen : α → Bool} {f : SessionId → σ → σ × Except Exn α}
  {answer : Except Exn α}

/-- A call never changes the object. -/
theorem rpc_of_call (h : l.call function seen f = (l', answer)) : l'.rpc = l.rpc := by
  cases hrpc : l.rpc with
  | none =>
    rw [call_of_none hrpc] at h
    obtain ⟨rfl, -⟩ := Prod.mk.inj h
    exact hrpc
  | some rpc =>
    rw [call_of_some hrpc] at h
    obtain ⟨rfl, -⟩ := Prod.mk.inj h
    exact hrpc

/-- A call that was answered was made on an object, and is recorded with its answer. -/
theorem calls_of_answered {x : α} (h : l.call function seen f = (l', .ok x)) :
    ∃ rpc, l.rpc = some rpc ∧ l'.calls = l.calls ++ [⟨function, rpc.authenticated, some (seen x)⟩] := by
  cases hrpc : l.rpc with
  | none =>
    rw [call_of_none hrpc] at h
    cases (Prod.mk.inj h).2
  | some rpc =>
    rw [call_of_some hrpc] at h
    obtain ⟨rfl, hanswer⟩ := Prod.mk.inj h
    rw [hanswer]
    exact ⟨rpc, rfl, rfl⟩

/-- A call on an object does no harm. -/
theorem crashed_of_call (h : l.call function seen f = (l', answer)) (hrpc : l.rpc.isSome = true) :
    l'.crashed = l.crashed := by
  obtain ⟨rpc, hrpc⟩ := Option.isSome_iff_exists.mp hrpc
  rw [call_of_some hrpc] at h
  obtain ⟨rfl, -⟩ := Prod.mk.inj h
  rfl

/-- A call is recorded, if there is an object. -/
theorem calls_of_call (h : l.call function seen f = (l', answer)) :
    l'.calls = l.calls ∨ ∃ c, c.function = function ∧ l'.calls = l.calls ++ [c] := by
  cases hrpc : l.rpc with
  | none =>
    rw [call_of_none hrpc] at h
    obtain ⟨rfl, -⟩ := Prod.mk.inj h
    exact Or.inl rfl
  | some rpc =>
    rw [call_of_some hrpc] at h
    obtain ⟨rfl, -⟩ := Prod.mk.inj h
    exact Or.inr ⟨_, rfl, rfl⟩

/-- What a call adds to the records. -/
theorem mem_calls_of_call (h : l.call function seen f = (l', answer)) {c : CallRecord}
    (hc : c ∈ l'.calls) :
    c ∈ l.calls ∨ ∃ rpc, l.rpc = some rpc
      ∧ c = ⟨function, rpc.authenticated, answer.toOption.map seen⟩ := by
  cases hrpc : l.rpc with
  | none =>
    rw [call_of_none hrpc] at h
    obtain ⟨rfl, -⟩ := Prod.mk.inj h
    exact Or.inl hc
  | some rpc =>
    rw [call_of_some hrpc] at h
    obtain ⟨rfl, rfl⟩ := Prod.mk.inj h
    rcases List.mem_append.mp hc with hc | hc
    · exact Or.inl hc
    · exact Or.inr ⟨rpc, rfl, List.mem_singleton.mp hc⟩

/-- The records only grow. -/
theorem prefix_of_call (h : l.call function seen f = (l', answer)) : l.calls <+: l'.calls := by
  cases hrpc : l.rpc with
  | none =>
    rw [call_of_none hrpc] at h
    obtain ⟨rfl, -⟩ := Prod.mk.inj h
    exact List.prefix_rfl
  | some rpc =>
    rw [call_of_some hrpc] at h
    obtain ⟨rfl, -⟩ := Prod.mk.inj h
    exact List.prefix_append ..

/-- What a call leaves of the server. -/
theorem server_of_call (h : l.call function seen f = (l', answer)) :
    (l'.server = l.server ∧ ∃ e, answer = .error e) ∨
      ∃ rpc, l.rpc = some rpc ∧ f rpc.conn l.server = (l'.server, answer) := by
  cases hrpc : l.rpc with
  | none =>
    rw [call_of_none hrpc] at h
    obtain ⟨rfl, rfl⟩ := Prod.mk.inj h
    exact Or.inl ⟨rfl, _, rfl⟩
  | some rpc =>
    rw [call_of_some hrpc] at h
    obtain ⟨rfl, rfl⟩ := Prod.mk.inj h
    exact Or.inr ⟨rpc, rfl, rfl⟩

/-- The server has done what it was called for. -/
theorem server_of_call_some {rpc : Rpc} (hrpc : l.rpc = some rpc)
    (h : l.call function seen f = (l', answer)) :
    f rpc.conn l.server = (l'.server, answer) ∧ l'.rpc = some rpc := by
  rw [call_of_some hrpc] at h
  obtain ⟨rfl, rfl⟩ := Prod.mk.inj h
  exact ⟨rfl, hrpc⟩

end Call

/-- The records are only added to by calls. -/
theorem calls_of_checkCreateRpc {answer : Except Exn Unit}
    (h : l.checkCreateRpc r = (l', answer)) : l'.calls = l.calls ∧ l'.crashed = l.crashed := by
  cases answer with
  | error e =>
    obtain ⟨-, s, -, rfl⟩ := checkCreateRpc_error h
    exact ⟨rfl, rfl⟩
  | ok =>
    obtain ⟨rpc, -, ⟨rfl, -⟩ | ⟨-, s, -, rfl⟩⟩ := checkCreateRpc_ok h
    · exact ⟨rfl, rfl⟩
    · exact ⟨rfl, rfl⟩

theorem prefix_of_checkCreateRpc {answer : Except Exn Unit}
    (h : l.checkCreateRpc r = (l', answer)) : l.calls <+: l'.calls := by
  have hcalls := (calls_of_checkCreateRpc h).1
  exact hcalls ▸ List.prefix_rfl

/-- The check may call the server, too. -/
theorem server_of_checkCreateRpc {answer : Except Exn Unit}
    (h : l.checkCreateRpc r = (l', answer)) :
    l'.server = l.server ∨ l'.server = (r.createServer l.server).1 := by
  cases answer with
  | error e =>
    obtain ⟨-, s, hserver, rfl⟩ := checkCreateRpc_error h
    exact Or.inr (congrArg Prod.fst hserver).symm
  | ok =>
    obtain ⟨rpc, -, ⟨rfl, -⟩ | ⟨-, s, hserver, rfl⟩⟩ := checkCreateRpc_ok h
    · exact Or.inl rfl
    · exact Or.inr (congrArg Prod.fst hserver).symm

theorem isSome_of_checkCreateRpc (h : l.checkCreateRpc r = (l', .ok ())) : l'.rpc.isSome = true := by
  obtain ⟨rpc, hrpc, -⟩ := checkCreateRpc_ok h
  rw [hrpc]
  rfl

/-- Without an object authenticating is the end, too. -/
theorem authenticate_of_none {token : Text} (hrpc : l.rpc = none) :
    l.authenticate r token
      = ({ l with crashed := true }, .error (.runtimeError "null pointer".toList)) := by
  unfold authenticate
  rw [call_of_none hrpc]

/-- To authenticate is a call, and the object remembers whether it was answered. -/
theorem authenticate_of_some {token : Text} {rpc : Rpc} (hrpc : l.rpc = some rpc) :
    l.authenticate r token =
      ({ l with
         server := (r.authenticate rpc.conn token l.server).1
         rpc := some { rpc with
           authenticated := rpc.authenticated
             || (r.authenticate rpc.conn token l.server).2.isOk }
         calls := l.calls ++ [⟨.authenticate, rpc.authenticated,
           (r.authenticate rpc.conn token l.server).2.toOption.map fun _ => true⟩] },
        (r.authenticate rpc.conn token l.server).2) := by
  unfold authenticate
  rw [call_of_some hrpc]
  cases (r.authenticate rpc.conn token l.server).2 with
  | error e => simp [hrpc, Except.isOk, Except.toBool]
  | ok => simp [hrpc, Except.isOk, Except.toBool]

theorem authenticate_ok {token : Text} (h : l.authenticate r token = (l', .ok ())) :
    ∃ rpc, l.rpc = some rpc ∧ r.authenticate rpc.conn token l.server = (l'.server, .ok ())
      ∧ l'.rpc = some { rpc with authenticated := true }
      ∧ l'.calls = l.calls ++ [⟨.authenticate, rpc.authenticated, some true⟩] := by
  cases hrpc : l.rpc with
  | none =>
    rw [authenticate_of_none hrpc] at h
    cases (Prod.mk.inj h).2
  | some rpc =>
    rw [authenticate_of_some hrpc] at h
    obtain ⟨rfl, hanswer⟩ := Prod.mk.inj h
    refine ⟨rpc, rfl, Prod.ext rfl hanswer, ?_, ?_⟩
    · simp [hanswer, Except.isOk, Except.toBool]
    · simp [hanswer, Except.toOption]

theorem server_of_authenticate {token : Text} {answer : Except Exn Unit}
    (h : l.authenticate r token = (l', answer)) :
    (l'.server = l.server ∧ ∃ e, answer = .error e) ∨
      ∃ rpc, l.rpc = some rpc ∧ r.authenticate rpc.conn token l.server = (l'.server, answer) := by
  cases hrpc : l.rpc with
  | none =>
    rw [authenticate_of_none hrpc] at h
    obtain ⟨rfl, rfl⟩ := Prod.mk.inj h
    exact Or.inl ⟨rfl, _, rfl⟩
  | some rpc =>
    rw [authenticate_of_some hrpc] at h
    obtain ⟨rfl, rfl⟩ := Prod.mk.inj h
    exact Or.inr ⟨rpc, rfl, rfl⟩

theorem prefix_of_authenticate {token : Text} {answer : Except Exn Unit}
    (h : l.authenticate r token = (l', answer)) : l.calls <+: l'.calls := by
  cases hrpc : l.rpc with
  | none =>
    rw [authenticate_of_none hrpc] at h
    obtain ⟨rfl, -⟩ := Prod.mk.inj h
    exact List.prefix_rfl
  | some rpc =>
    rw [authenticate_of_some hrpc] at h
    obtain ⟨rfl, -⟩ := Prod.mk.inj h
    exact List.prefix_append ..

theorem calls_of_authenticate {token : Text} {answer : Except Exn Unit}
    (h : l.authenticate r token = (l', answer)) :
    l'.calls = l.calls ∨ ∃ c, c.function = .authenticate ∧ l'.calls = l.calls ++ [c] := by
  cases hrpc : l.rpc with
  | none =>
    rw [authenticate_of_none hrpc] at h
    obtain ⟨rfl, -⟩ := Prod.mk.inj h
    exact Or.inl rfl
  | some rpc =>
    rw [authenticate_of_some hrpc] at h
    obtain ⟨rfl, -⟩ := Prod.mk.inj h
    exact Or.inr ⟨_, rfl, rfl⟩

theorem crashed_of_authenticate {token : Text} {answer : Except Exn Unit}
    (h : l.authenticate r token = (l', answer)) (hrpc : l.rpc.isSome = true) :
    l'.crashed = l.crashed := by
  obtain ⟨rpc, hrpc⟩ := Option.isSome_iff_exists.mp hrpc
  rw [authenticate_of_some hrpc] at h
  obtain ⟨rfl, -⟩ := Prod.mk.inj h
  rfl

theorem mem_calls_of_authenticate {token : Text} {answer : Except Exn Unit}
    (h : l.authenticate r token = (l', answer)) {c : CallRecord} (hc : c ∈ l'.calls) :
    c ∈ l.calls ∨ c.function = .authenticate := by
  cases hrpc : l.rpc with
  | none =>
    rw [authenticate_of_none hrpc] at h
    obtain ⟨rfl, -⟩ := Prod.mk.inj h
    exact Or.inl hc
  | some rpc =>
    rw [authenticate_of_some hrpc] at h
    obtain ⟨rfl, -⟩ := Prod.mk.inj h
    rcases List.mem_append.mp hc with hc | hc
    · exact Or.inl hc
    · rw [List.mem_singleton.mp hc]
      exact Or.inr rfl

end Line

end MediaArchiver
