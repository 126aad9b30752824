/-
# MediaArchiver.Lib.Folders -- what a path means in a hierarchy of folders

A path is resolved from the root if it begins with a slash and from a working folder otherwise, one component
at a time; empty components do not count. The hierarchy is abstract: a root, and the folder that a name leads
to from another one. Links, dots and mounts are in it. A path for a file leads to a folder and a name there,
whether or not there is such a file.
-/
import Mathlib.Data.List.Basic

namespace MediaArchiver.Lib

universe u

/-- Folders, and where a name leads from each. -/
structure Folders (δ : Type u) where
  root : δ
  enter : δ → List Char → Option δ

/-- The parts of a path between its slashes that are not empty. -/
def components (path : List Char) : List (List Char) := (path.splitOn '/').filter (!·.isEmpty)

theorem components_append (a b : List Char) :
    components (a ++ '/' :: b) = components a ++ components b := by
  simp only [components, List.splitOn_eq_splitOnP]
  rw [List.splitOnP_append_cons a b (by decide), List.filter_append]

theorem components_of_name {n : List Char} (hslash : '/' ∉ n) (hn : n ≠ []) : components n = [n] := by
  rw [components, List.splitOn_eq_singleton hslash, List.filter_singleton]
  cases n with
  | nil => exact absurd rfl hn
  | cons c n => rfl

/-- A part between two slashes is made of what stands in the path, slashes excepted. -/
theorem mem_splitOn {path n : List Char} (h : n ∈ path.splitOn '/') : '/' ∉ n ∧ n ⊆ path := by
  induction path generalizing n with
  | nil =>
    obtain rfl : n = [] := by simpa using h
    exact ⟨List.not_mem_nil, List.nil_subset _⟩
  | cons c path ih =>
    rw [List.splitOn_cons_eq_if_modifyHead] at h
    split_ifs at h with hc
    · rcases List.mem_cons.mp h with rfl | hmem
      · exact ⟨List.not_mem_nil, List.nil_subset _⟩
      · exact ⟨(ih hmem).1, fun x hx => List.mem_cons_of_mem c ((ih hmem).2 hx)⟩
    · obtain ⟨m, ms, hsplit⟩ := List.exists_cons_of_ne_nil (List.splitOn_ne_nil '/' path)
      rw [hsplit] at h ih
      rcases List.mem_cons.mp h with rfl | hmem
      · obtain ⟨hslash, hsub⟩ := ih List.mem_cons_self
        refine ⟨?_, fun x hx => ?_⟩
        · rw [List.mem_cons, not_or]
          exact ⟨fun heq => hc (beq_iff_eq.mpr heq.symm), hslash⟩
        · rcases List.mem_cons.mp hx with rfl | hx
          · exact List.mem_cons_self
          · exact List.mem_cons_of_mem c (hsub hx)
      · obtain ⟨hslash, hsub⟩ := ih (List.mem_cons_of_mem m hmem)
        exact ⟨hslash, fun x hx => List.mem_cons_of_mem c (hsub hx)⟩

theorem mem_components {path n : List Char} (h : n ∈ components path) : '/' ∉ n ∧ n ≠ [] ∧ n ⊆ path := by
  obtain ⟨hmem, hne⟩ := List.mem_filter.mp h
  obtain ⟨hslash, hsub⟩ := mem_splitOn hmem
  refine ⟨hslash, ?_, hsub⟩
  rintro rfl
  cases hne

/-- A path that does not begin with a slash has a component. -/
theorem components_ne_nil {path : List Char} (hne : path ≠ []) (hrel : path.head? ≠ some '/') :
    components path ≠ [] := by
  cases path with
  | nil => exact absurd rfl hne
  | cons c path =>
    have hc : (c == '/') = false := by
      rw [beq_eq_false_iff_ne]
      rintro rfl
      exact hrel rfl
    obtain ⟨m, ms, hsplit⟩ := List.exists_cons_of_ne_nil (List.splitOn_ne_nil '/' path)
    rw [components, List.splitOn_cons_eq_if_modifyHead, hc, if_neg Bool.false_ne_true, hsplit]
    simp

namespace Folders

variable {δ : Type u} (F : Folders δ)

/-- Where the resolution of a path begins. -/
def start (cwd : δ) (path : List Char) : δ := if path.head? = some '/' then F.root else cwd

/-- The folder that a path names. The empty path names none. -/
def openFolder (cwd : δ) (path : List Char) : Option δ :=
  if path = [] then none else (components path).foldlM F.enter (F.start cwd path)

/-- The place of a file: a folder, and a name there. -/
def place (cwd : δ) (path : List Char) : Option (δ × List Char) :=
  if path.getLast? = some '/' then none
  else
    match (components path).getLast? with
    | none => none
    | some name =>
        ((components path).dropLast.foldlM F.enter (F.start cwd path)).map fun dir => (dir, name)

variable {F} {cwd d : δ} {dir path n : List Char}

/-- A path that begins with a name and has no slash at all is in the working folder. -/
theorem place_of_name (hslash : '/' ∉ n) (hn : n ≠ []) : F.place cwd n = some (cwd, n) := by
  have hlast : n.getLast? ≠ some '/' := fun h => hslash (List.mem_of_getLast? h)
  have hhead : n.head? ≠ some '/' := fun h => hslash (List.mem_of_head? h)
  rw [place, if_neg hlast, components_of_name hslash hn, start, if_neg hhead]
  rfl

/-- The name of a file is a part of its path. -/
theorem name_of_place (h : F.place cwd path = some (d, n)) : '/' ∉ n ∧ n ≠ [] ∧ n ⊆ path := by
  unfold place at h
  split_ifs at h
  cases hlast : (components path).getLast? with
  | none =>
    rw [hlast] at h
    cases h
  | some name =>
    rw [hlast] at h
    obtain ⟨dir, -, heq⟩ := Option.map_eq_some_iff.mp h
    obtain ⟨-, rfl⟩ := Prod.mk.inj heq
    exact mem_components (List.mem_of_getLast? hlast)

/-- A path in a folder is resolved from that folder. -/
theorem place_child (hdir : F.openFolder cwd dir = some d) (hne : path ≠ [])
    (hrel : path.head? ≠ some '/') : F.place cwd (dir ++ '/' :: path) = F.place d path := by
  unfold openFolder at hdir
  split_ifs at hdir with hempty
  have hcomponents := components_ne_nil hne hrel
  have hstart : F.start cwd (dir ++ '/' :: path) = F.start cwd dir := by
    cases dir with
    | nil => exact absurd rfl hempty
    | cons c dir => rfl
  have hlast : (dir ++ '/' :: path).getLast? = path.getLast? := by
    rw [List.getLast?_append_of_ne_nil _ (List.cons_ne_nil _ _), List.getLast?_cons_of_ne_nil hne]
  rw [place, place, hlast, hstart, components_append, List.getLast?_append_of_ne_nil _ hcomponents,
    List.dropLast_append_of_ne_nil hcomponents, List.foldlM_append, hdir, start, if_neg hrel]
  rfl

/-- What is behind the last slash is the name. -/
theorem name_of_place_child {p : δ × List Char} (hslash : '/' ∉ n) (hn : n ≠ [])
    (h : F.place cwd (dir ++ '/' :: n) = some p) : p.2 = n := by
  unfold place at h
  split_ifs at h
  rw [components_append, components_of_name hslash hn, List.getLast?_concat] at h
  obtain ⟨d, -, rfl⟩ := Option.map_eq_some_iff.mp h
  rfl

end Folders

end MediaArchiver.Lib
