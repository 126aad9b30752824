/-
# MediaArchiver.Lib.SqlText -- quoted literals in the text of a statement

In SQL a literal stands between two quotes, and a quote inside of it is doubled. Whoever reads the text sees
at a quote only by the next character whether it ends the literal. So a string may be put between quotes if
its quotes are doubled, and if what follows does not begin with a quote (`readLiteral_double`).

A statement that is put together from fixed parts without quotes and from such literals is read as it was
meant, whatever the strings are (`lex_render`).
-/
import Mathlib.Data.List.Basic

namespace MediaArchiver.Lib

universe u

variable {α : Type u} [DecidableEq α]

/-! ## Literals -/

/-- Every quote doubled. -/
def double (quote : α) (s : List α) : List α :=
  s.flatMap fun c => if c = quote then [quote, quote] else [c]

/-- Read a literal whose first quote is read already: its value, and what follows. -/
def readLiteral (quote : α) : List α → Option (List α × List α)
  | [] => none
  | c :: rest =>
      if c = quote then
        match rest with
        | [] => some ([], [])
        | c' :: rest' =>
            if c' = quote then (readLiteral quote rest').map fun r => (quote :: r.1, r.2)
            else some ([], c' :: rest')
      else (readLiteral quote rest).map fun r => (c :: r.1, r.2)

variable {quote : α}

theorem double_cons (c : α) (s : List α) :
    double quote (c :: s) = (if c = quote then [quote, quote] else [c]) ++ double quote s := rfl

/-- Without a quote there is nothing to double. -/
theorem double_of_not_mem {s : List α} (h : quote ∉ s) : double quote s = s := by
  induction s with
  | nil => rfl
  | cons c s ih =>
    rw [List.mem_cons, not_or] at h
    rw [double_cons, if_neg (Ne.symm h.1), ih h.2, List.singleton_append]

/-- A quote that is followed by something else ends the literal. -/
theorem readLiteral_end {t : List α} (h : t.head? ≠ some quote) :
    readLiteral quote (quote :: t) = some ([], t) := by
  unfold readLiteral
  rw [if_pos rfl]
  cases t with
  | nil => rfl
  | cons c t => exact if_neg fun hc => h (congrArg some hc)

theorem readLiteral_doubled (rest : List α) :
    readLiteral quote (quote :: quote :: rest)
      = (readLiteral quote rest).map fun r => (quote :: r.1, r.2) := by
  rw [readLiteral.eq_def]
  simp

theorem readLiteral_other {c : α} (h : c ≠ quote) (rest : List α) :
    readLiteral quote (c :: rest) = (readLiteral quote rest).map fun r => (c :: r.1, r.2) := by
  rw [readLiteral.eq_def]
  simp [h]

/-- What was put between the quotes comes back, and what follows is left. -/
theorem readLiteral_double (s : List α) {t : List α} (h : t.head? ≠ some quote) :
    readLiteral quote (double quote s ++ quote :: t) = some (s, t) := by
  induction s with
  | nil => exact readLiteral_end h
  | cons c s ih =>
    rw [double_cons]
    by_cases hc : c = quote
    · rw [if_pos hc, hc]
      show readLiteral quote (quote :: quote :: (double quote s ++ quote :: t)) = _
      rw [readLiteral_doubled, ih, Option.map_some]
    · rw [if_neg hc]
      show readLiteral quote (c :: (double quote s ++ quote :: t)) = _
      rw [readLiteral_other hc, ih, Option.map_some]

theorem length_of_readLiteral {s : List α} {r : List α × List α} (h : readLiteral quote s = some r) :
    r.2.length < s.length := by
  fun_induction readLiteral quote s generalizing r with
  | case1 => cases h
  | case2 => cases h; simp
  | case3 rest' ih =>
    obtain ⟨r', hr', rfl⟩ := Option.map_eq_some_iff.mp h
    have hshort := ih hr'
    simp only [List.length_cons]
    omega
  | case4 => cases h; simp
  | case5 c rest hc ih =>
    obtain ⟨r', hr', rfl⟩ := Option.map_eq_some_iff.mp h
    have hshort := ih hr'
    simp only [List.length_cons]
    omega

/-! ## Statements -/

/-- What a text consists of for its reader: single characters, and literals. -/
inductive SqlToken (α : Type u) where
  | char (c : α)
  | literal (s : List α)
deriving DecidableEq

/-- Read a text. -/
def lex (quote : α) : List α → Option (List (SqlToken α))
  | [] => some []
  | c :: rest =>
      if c = quote then
        match _h : readLiteral quote rest with
        | none => none
        | some r => (lex quote r.2).map fun tokens => .literal r.1 :: tokens
      else (lex quote rest).map fun tokens => .char c :: tokens
termination_by s => s.length
decreasing_by
  · have hshort := length_of_readLiteral _h
    simp only [List.length_cons]
    omega
  · simp

/-- A part of a statement: fixed text, or a string that is put between quotes. -/
inductive SqlPart (α : Type u) where
  | fixed (text : List α)
  | quoted (s : List α)

namespace SqlPart

/-- The part as it stands in the text. -/
def render (quote : α) : SqlPart α → List α
  | .fixed text => text
  | .quoted s => quote :: (double quote s ++ [quote])

/-- What the part is meant to be. -/
def tokens : SqlPart α → List (SqlToken α)
  | .fixed text => text.map .char
  | .quoted s => [.literal s]

end SqlPart

/-- The fixed parts have no quotes, and there is one behind each literal. -/
def Separated (quote : α) : List (SqlPart α) → Prop
  | [] => True
  | .fixed text :: parts => quote ∉ text ∧ Separated quote parts
  | [.quoted _] => True
  | .quoted _ :: .fixed text :: parts => text ≠ [] ∧ Separated quote (.fixed text :: parts)
  | .quoted _ :: .quoted _ :: _ => False

theorem lex_fixed_append {text : List α} (h : quote ∉ text) (rest : List α) :
    lex quote (text ++ rest) = (lex quote rest).map fun tokens => text.map SqlToken.char ++ tokens := by
  induction text with
  | nil => simp
  | cons c text ih =>
    rw [List.mem_cons, not_or] at h
    rw [List.cons_append, lex, if_neg (Ne.symm h.1), ih h.2, Option.map_map]
    rfl

theorem lex_quoted_append (s : List α) {rest : List α} (h : rest.head? ≠ some quote) :
    lex quote ((SqlPart.quoted s).render quote ++ rest)
      = (lex quote rest).map fun tokens => .literal s :: tokens := by
  have hread : readLiteral quote (double quote s ++ [quote] ++ rest) = some (s, rest) := by
    rw [List.append_assoc]
    exact readLiteral_double s h
  rw [SqlPart.render, List.cons_append, lex, if_pos rfl]
  split
  · rename_i hnone
    rw [hread] at hnone
    cases hnone
  · rename_i r hr
    rw [hread] at hr
    cases hr
    rfl

/-- A statement is read as it was meant, whatever strings are quoted in it. -/
theorem lex_render {parts : List (SqlPart α)} (h : Separated quote parts) :
    lex quote (parts.flatMap (SqlPart.render quote)) = some (parts.flatMap SqlPart.tokens) := by
  induction parts with
  | nil =>
    rw [List.flatMap_nil, lex]
    rfl
  | cons part parts ih =>
    rw [List.flatMap_cons, List.flatMap_cons]
    cases part with
    | fixed text =>
      show lex quote (text ++ _) = _
      rw [lex_fixed_append h.1, ih h.2]
      rfl
    | quoted s =>
      cases parts with
      | nil =>
        rw [List.flatMap_nil, lex_quoted_append s (by simp), lex]
        rfl
      | cons part parts =>
        cases part with
        | quoted s' => exact absurd h id
        | fixed text =>
          -- the text behind the literal begins with a character of this part
          obtain ⟨hne, hparts⟩ := h
          rw [lex_quoted_append s, ih hparts]
          · rfl
          · obtain ⟨c, text, rfl⟩ := List.exists_cons_of_ne_nil hne
            have hc : c ≠ quote := fun hc => hparts.1 (hc ▸ List.mem_cons_self)
            show some c ≠ some quote
            exact fun heq => hc (Option.some.inj heq)

end MediaArchiver.Lib
