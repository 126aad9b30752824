/-
# MediaArchiver.Daemon.Connections -- two keys for one session

The daemon keeps its sessions under the id of the connection, but a client that lost its connection
comes back under another id and identifies itself by its token. `authenticate` therefore looks for the
token among all entries, takes the state it finds there, and stores it under the id of the call.

What makes this work is that no two entries have the same token (`TokensUnique`), which `authenticate`
itself keeps. What breaks it is the last assignment: the id of the call may be taken by an entry with
another token, and then that entry is gone (`rebinds_iff`).
-/
import MediaArchiver.Lib.Table
import MediaArchiver.Daemon.Session

namespace MediaArchiver

open Lib (Table)

/-- The id of a connection. -/
abbrev SessionId := Nat

/-- `m_connections`, in the order of the ids. -/
abbrev Connections := Table SessionId ConnectedClient

namespace Connections

/-- The state that a token is bound to: that of the last entry with the token, or a new session. -/
def bound (c : Connections) (junk : Uninitialised) (token : Text) : ConnectedClient :=
  match (c.rows.filter fun r => r.2.token = token).getLast? with
  | some r => { r.2 with token := token }
  | none => { ConnectedClient.fresh junk with token := token }

/-- Bind a token to the session id of the call. -/
def authenticate (c : Connections) (id : SessionId) (junk : Uninitialised) (token : Text) :
    Connections :=
  -- the assignment goes to the id whether or not another token's session is there
  (c.filter fun r => r.2.token ≠ token).insert id (c.bound junk token)

/-- No two entries have the same token. -/
def TokensUnique (c : Connections) : Prop :=
  ∀ r ∈ c.rows, ∀ s ∈ c.rows, r.2.token = s.2.token → r = s

@[simp] theorem token_bound (c : Connections) (junk : Uninitialised) (token : Text) :
    (c.bound junk token).token = token := by
  unfold bound
  split <;> rfl

/-- A token is bound to the state of an entry that has it, or to a new session if there is none. -/
theorem bound_cases (c : Connections) (junk : Uninitialised) (token : Text) :
    (∃ r ∈ c.rows, r.2.token = token ∧ bound c junk token = r.2) ∨
      ((∀ r ∈ c.rows, r.2.token ≠ token)
        ∧ bound c junk token = { ConnectedClient.fresh junk with token := token }) := by
  unfold bound
  cases hlast : (c.rows.filter fun r => r.2.token = token).getLast? with
  | none =>
    rw [List.getLast?_eq_none_iff, List.filter_eq_nil_iff] at hlast
    exact Or.inr ⟨fun r hr => by simpa using hlast r hr, rfl⟩
  | some r =>
    obtain ⟨hr, htoken⟩ := List.mem_filter.mp (List.mem_of_getLast? hlast)
    obtain rfl : r.2.token = token := of_decide_eq_true htoken
    exact Or.inl ⟨r, hr, rfl, rfl⟩

/-- Whether the token is among those of the sessions tells which of the two it is. -/
theorem known_cases (c : Connections) (junk : Uninitialised) (token : Text) :
    ((c.rows.any fun r => r.2.token = token) = true ∧ ∃ r ∈ c.rows, bound c junk token = r.2) ∨
      ((c.rows.any fun r => r.2.token = token) = false
        ∧ bound c junk token = { ConnectedClient.fresh junk with token := token }) := by
  rcases bound_cases c junk token with ⟨r, hr, htoken, hbound⟩ | ⟨hnone, hbound⟩
  · exact Or.inl ⟨List.any_eq_true.mpr ⟨r, hr, decide_eq_true htoken⟩, r, hr, hbound⟩
  · refine Or.inr ⟨List.any_eq_false.mpr fun r hr => ?_, hbound⟩
    rw [decide_eq_true_iff]
    exact hnone r hr

/-- A token that is known is bound to the state it had. -/
theorem bound_of_mem {c : Connections} (hu : TokensUnique c) (junk : Uninitialised)
    {r : SessionId × ConnectedClient} (hr : r ∈ c.rows) : bound c junk r.2.token = r.2 := by
  rcases bound_cases c junk r.2.token with ⟨s, hs, htoken, hbound⟩ | ⟨hnone, _⟩
  · rw [hbound, hu s hs r hr htoken]
  · exact absurd rfl (hnone r hr)

theorem mem_authenticate {c : Connections} {id : SessionId} {junk : Uninitialised} {token : Text}
    {r : SessionId × ConnectedClient} :
    r ∈ (authenticate c id junk token).rows ↔
      r = (id, bound c junk token) ∨ (r ∈ c.rows ∧ r.2.token ≠ token) ∧ r.1 ≠ id := by
  rw [authenticate, Table.mem_insert, Table.mem_filter, decide_eq_true_iff]

/-- What all sessions have in common they have after one more authenticated, if a new one has it. -/
theorem forall_authenticate {c : Connections} {Q : ConnectedClient → Prop} (h : ∀ r ∈ c.rows, Q r.2)
    (id : SessionId) (junk : Uninitialised) (token : Text)
    (hnew : (∀ r ∈ c.rows, r.2.token ≠ token) → Q { ConnectedClient.fresh junk with token := token }) :
    ∀ r ∈ (authenticate c id junk token).rows, Q r.2 := by
  intro r hr
  rcases mem_authenticate.mp hr with rfl | ⟨⟨hr, -⟩, -⟩
  · show Q (c.bound junk token)
    rcases c.bound_cases junk token with ⟨s, hs, -, hbound⟩ | ⟨hnone, hbound⟩
    · rw [hbound]
      exact h s hs
    · rw [hbound]
      exact hnew hnone
  · exact h r hr

theorem tokensUnique_authenticate {c : Connections} (hu : TokensUnique c) (id : SessionId)
    (junk : Uninitialised) (token : Text) : TokensUnique (authenticate c id junk token) := by
  intro r hr s hs htoken
  rcases mem_authenticate.mp hr with rfl | ⟨⟨hr, hrt⟩, _⟩ <;>
    rcases mem_authenticate.mp hs with rfl | ⟨⟨hs, hst⟩, _⟩
  · rfl
  · exact absurd (htoken.symm.trans (token_bound c junk token)) hst
  · exact absurd (htoken.trans (token_bound c junk token)) hrt
  · exact hu r hr s hs htoken

/-- The entry at the id of the call holds what the token was bound to. -/
theorem find?_authenticate (c : Connections) (id : SessionId) (junk : Uninitialised) (token : Text) :
    (authenticate c id junk token).find? id = some (bound c junk token) :=
  Table.find?_insert_self ..

/-- Replacing a session by one with the same token keeps the tokens unique. -/
theorem tokensUnique_insert {c : Connections} (hu : TokensUnique c) {id : SessionId}
    {cli cli' : ConnectedClient} (hcli : c.find? id = some cli) (htoken : cli'.token = cli.token) :
    TokensUnique (c.insert id cli') := by
  have hold : (id, cli) ∈ c.rows := c.find?_eq_some.mp hcli
  intro r hr s hs h
  rcases (c.mem_insert id cli' r).mp hr with rfl | ⟨hr, hrid⟩ <;>
    rcases (c.mem_insert id cli' s).mp hs with rfl | ⟨hs, hsid⟩
  · rfl
  · exact absurd (congrArg Prod.fst (hu _ hold s hs (htoken.symm.trans h))).symm hsid
  · exact absurd (congrArg Prod.fst (hu r hr _ hold (h.trans htoken))) hrid
  · exact hu r hr s hs h

/-! ## What authentication is for -/

/-- After a client authenticated, its token has one entry, at the id of the call and with the state it
had; and every other token has what it had, there for the client that comes back with it. -/
structure Rebinds (c : Connections) (id : SessionId) (junk : Uninitialised) (token : Text) : Prop where
  entry : ∃ cli, (authenticate c id junk token).find? id = some cli ∧ cli.token = token
  single : ∀ r ∈ (authenticate c id junk token).rows, r.2.token = token → r.1 = id
  former : ∀ r ∈ c.rows, r.2.token = token → (authenticate c id junk token).find? id = some r.2
  others : ∀ r ∈ c.rows, r.2.token ≠ token → r ∈ (authenticate c id junk token).rows
  reachable : ∀ r ∈ c.rows, r.2.token ≠ token → ∀ id' junk',
    (authenticate (authenticate c id junk token) id' junk' r.2.token).find? id' = some r.2

/-- Authentication does what it is for exactly if the id of the call is not taken by another token. -/
theorem rebinds_iff {c : Connections} (hu : TokensUnique c) (id : SessionId) (junk : Uninitialised)
    (token : Text) :
    Rebinds c id junk token ↔ ∀ cli, c.find? id = some cli → cli.token = token := by
  have hself := find?_authenticate c id junk token
  constructor
  · intro h cli hcli
    by_contra hne
    have hkept := h.others (id, cli) (c.find?_eq_some.mp hcli) hne
    rcases mem_authenticate.mp hkept with heq | ⟨_, hid⟩
    · exact hne ((congrArg (fun r => r.2.token) heq).trans (token_bound c junk token))
    · exact hid rfl
  · intro hfree
    have hothers : ∀ r ∈ c.rows, r.2.token ≠ token → r ∈ (authenticate c id junk token).rows := by
      intro r hr hne
      refine mem_authenticate.mpr (Or.inr ⟨⟨hr, hne⟩, fun hid => hne (hfree r.2 ?_)⟩)
      rw [← hid]
      exact c.find?_eq_some.mpr hr
    refine ⟨⟨_, hself, token_bound c junk token⟩, ?_, ?_, hothers, ?_⟩
    · intro r hr htoken
      rcases mem_authenticate.mp hr with rfl | ⟨⟨_, hne⟩, _⟩
      · rfl
      · exact absurd htoken hne
    · rintro r hr rfl
      rw [hself, bound_of_mem hu junk hr]
    · intro r hr hne id' junk'
      have hu' := tokensUnique_authenticate hu id junk token
      rw [find?_authenticate, bound_of_mem hu' junk' (hothers r hr hne)]

end Connections

end MediaArchiver
