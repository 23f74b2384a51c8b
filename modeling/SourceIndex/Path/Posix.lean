import SourceIndex.Text.Basic

/-!
# Paths of files

A path is normal if it has no empty parts and no parts that stay in place. Parts that lead upwards
are kept, since a link may stand before them. One slash at the start makes a path absolute, and so
do three or more; exactly two are kept as they are. The empty path leads to where it starts.
-/

namespace SourceIndex

namespace Path

/-- The slashes that a normal path starts with, for those that a path starts with. -/
def rootSlashes : Text → Text
  | [] => []
  | ['/', '/'] => ['/', '/']
  | _ => ['/']

/-- The slashes that a normal path starts with. -/
def rootOf (path : Text) : Text :=
  rootSlashes (path.takeWhile (· == '/'))

/-- The parts of a path that lead somewhere. -/
def partsOf (path : Text) : List Text :=
  (path.splitOn '/').filter fun part => part != [] && part != ['.']

/-- The normal form of a path. -/
def normalize (path : Text) : Text :=
  match rootOf path ++ List.intercalate ['/'] (partsOf path) with
  | [] => ['.']
  | normal => normal

/-- A slash in front of a path adds no part. -/
theorem partsOf_slash (path : Text) : partsOf ('/' :: path) = partsOf path := by
  simp [partsOf, List.splitOn_eq_splitOnP, List.splitOnP_cons_eq_if_modifyHead]

/-- The slashes that a path starts with add no parts. -/
theorem partsOf_rootOf (path rest : Text) : partsOf (rootOf path ++ rest) = partsOf rest := by
  unfold rootOf rootSlashes
  split <;> simp [partsOf_slash]

/-- A part is neither empty nor stays in place, and it has no slash. -/
theorem mem_partsOf {path part : Text} (h : part ∈ partsOf path) :
    part ≠ [] ∧ part ≠ ['.'] ∧ '/' ∉ part := by
  obtain ⟨hm, hp⟩ := List.mem_filter.mp h
  simp only [Bool.and_eq_true, bne_iff_ne] at hp
  exact ⟨hp.1, hp.2, Text.not_mem_of_mem_splitOn hm⟩

/-- Parts, put together, are the parts of the result. -/
theorem partsOf_intercalate {parts : List Text}
    (h : ∀ part ∈ parts, part ≠ [] ∧ part ≠ ['.'] ∧ '/' ∉ part) :
    partsOf (List.intercalate ['/'] parts) = parts := by
  by_cases hp : parts = []
  · subst hp
    rfl
  · rw [partsOf, List.splitOn_intercalate '/' (fun part hm => (h part hm).2.2) hp,
      List.filter_eq_self]
    intro part hm
    simp [(h part hm).1, (h part hm).2.1]

/-- Parts, put together, do not start with a slash. -/
theorem takeWhile_intercalate {parts : List Text}
    (h : ∀ part ∈ parts, part ≠ [] ∧ part ≠ ['.'] ∧ '/' ∉ part) :
    (List.intercalate ['/'] parts).takeWhile (· == '/') = [] := by
  match parts with
  | [] => rfl
  | [] :: _ => exact absurd rfl (h [] List.mem_cons_self).1
  | (c :: part) :: rest =>
    have hc : c ≠ '/' := fun e => (h (c :: part) List.mem_cons_self).2.2 (by simp [e])
    cases rest <;> simp [List.intercalate, hc]

/-- What does not start with a slash does not change the slashes in front of it. -/
theorem rootOf_append (path : Text) {rest : Text} (h : rest.takeWhile (· == '/') = []) :
    rootOf (rootOf path ++ rest) = rootOf path := by
  have hs : ∀ slashes : Text,
      (rootSlashes slashes).takeWhile (· == '/') = rootSlashes slashes ∧
        rootSlashes (rootSlashes slashes) = rootSlashes slashes := by
    intro slashes
    unfold rootSlashes
    split <;> exact ⟨rfl, rfl⟩
  obtain ⟨htake, hroot⟩ := hs (path.takeWhile (· == '/'))
  show rootSlashes ((rootSlashes _ ++ rest).takeWhile (· == '/')) = rootSlashes _
  rw [List.takeWhile_append, if_pos (by rw [htake]), h, List.append_nil, hroot]

/-- A normal form is its own normal form. -/
theorem normalize_normalize (path : Text) : normalize (normalize path) = normalize path := by
  have hparts : ∀ part ∈ partsOf path, part ≠ [] ∧ part ≠ ['.'] ∧ '/' ∉ part :=
    fun _ hm => mem_partsOf hm
  have hself : rootOf (rootOf path ++ List.intercalate ['/'] (partsOf path)) ++
      List.intercalate ['/']
        (partsOf (rootOf path ++ List.intercalate ['/'] (partsOf path))) =
      rootOf path ++ List.intercalate ['/'] (partsOf path) := by
    rw [rootOf_append path (takeWhile_intercalate hparts), partsOf_rootOf,
      partsOf_intercalate hparts]
  by_cases h : rootOf path ++ List.intercalate ['/'] (partsOf path) = []
  · have hdot : normalize path = ['.'] := by rw [normalize, h]
    rw [hdot]
    decide
  · have hnormal : ∀ s : Text, rootOf s ++ List.intercalate ['/'] (partsOf s) =
        rootOf path ++ List.intercalate ['/'] (partsOf path) →
        normalize s = rootOf path ++ List.intercalate ['/'] (partsOf path) := by
      intro s hs
      rw [normalize, hs]
      split
      · contradiction
      · rfl
    rw [hnormal path rfl]
    exact hnormal _ hself

/-- A path in its normal form. -/
structure Normal where
  text : Text
  isNormal : normalize text = text
  deriving DecidableEq, Repr

/-- The normal form of a path. -/
def Normal.of (path : Text) : Normal where
  text := normalize path
  isNormal := normalize_normalize path

/-- Whether a path starts at the root. -/
def isAbsolute (path : Text) : Bool :=
  path.startsWith ['/']

/-- The parts that lead to a place, after one more part was followed. -/
def follow (place : List Text) (part : Text) : List Text :=
  if part = ['.', '.'] then place.dropLast else place ++ [part]

/-- The parts that lead to where a path goes from a directory: those of the directory and of the
path if it is relative, with every step upwards taken. -/
def resolve (directory : List Text) (path : Text) : List Text :=
  (partsOf path).foldl follow (if isAbsolute path then [] else directory)

end Path

end SourceIndex
