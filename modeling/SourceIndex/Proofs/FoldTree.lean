import SourceIndex.Fingerprint
import Mathlib.Data.Nat.Log
import Mathlib.Data.List.Infix

/-!
# The tree behind the root of a list

The fold of a list of fingerprints is a perfect binary tree: its leaves are the entries, and where a
level has a last node without a neighbour that node stands twice. As long as no two different texts
have one fingerprint, two equal roots belong to one tree (`Tree.eq_or_isJoined`), unless a leaf of one
tree is the fingerprint of a text that the other tree joins. So the root binds the entries of lists
of one length, and lists of different lengths only up to the repetitions of the fold.
-/

namespace SourceIndex

/-- No two different texts among the given ones have the same fingerprint. -/
def CollisionFree (texts : List Text) : Prop :=
  ∀ s ∈ texts, ∀ t ∈ texts, fingerprint s = fingerprint t → s = t

theorem CollisionFree.mono {texts more : List Text} (h : CollisionFree more) (hs : texts ⊆ more) :
    CollisionFree texts :=
  fun s hm t ht => h s (hs hm) t (hs ht)

instance (texts : List Text) : Decidable (CollisionFree texts) :=
  inferInstanceAs (Decidable (∀ s ∈ texts, ∀ t ∈ texts, fingerprint s = fingerprint t → s = t))

@[simp]
theorem Text.length_hex (places n : Nat) : (Text.hex places n).length = places := by
  simp [Text.hex]

/-- A fingerprint has eight digits. -/
@[simp]
theorem length_fingerprint (s : Text) : (fingerprint s).length = 8 :=
  Text.length_hex 8 _

namespace Fingerprint

/-- The root of a list of fingerprints has eight digits itself. -/
theorem length_root {hs : List Text} (h : ∀ a ∈ hs, a.length = 8) : (root hs).length = 8 := by
  fun_induction root hs with
  | case1 => rfl
  | case2 a => exact h a (List.mem_singleton.mpr rfl)
  | case3 a b rest ih =>
    refine ih fun c hc => ?_
    have hjoined : ∀ hs : List Text, ∀ c ∈ joinPairs hs, c.length = 8 := by
      intro hs
      fun_induction joinPairs hs <;> simp_all
    exact hjoined _ c hc

/-- The texts that one level of the fold joins. -/
def joinedTexts : List Text → List Text
  | [] => []
  | [a] => [a ++ a]
  | a :: b :: rest => (a ++ b) :: joinedTexts rest

/-- The texts that the whole fold joins, level by level. -/
def foldedTexts : List Text → List Text
  | a :: b :: rest =>
    joinedTexts (a :: b :: rest) ++ foldedTexts (joinPairs (a :: b :: rest))
  | _ => []
termination_by hs => hs.length
decreasing_by simp only [length_joinPairs, List.length_cons]; omega

/-- An entry is the fingerprint of one of the texts. -/
def IsJoined (entries texts : List Text) : Prop :=
  ∃ a ∈ entries, ∃ s ∈ texts, a = fingerprint s

theorem IsJoined.mono {entries entries' texts texts' : List Text} (h : IsJoined entries texts)
    (he : entries ⊆ entries') (ht : texts ⊆ texts') : IsJoined entries' texts' := by
  obtain ⟨a, ha, s, hs, hash⟩ := h
  exact ⟨a, he ha, s, ht hs, hash⟩

/-! ## Trees -/

/-- A tree of fingerprints: an entry of the list, or the join of two neighbours. -/
inductive Tree where
  | leaf (hash : Text)
  | node (left right : Tree)
  deriving DecidableEq

namespace Tree

/-- The fingerprint of a tree. -/
def hash : Tree → Text
  | leaf h => h
  | node l r => fingerprint (l.hash ++ r.hash)

/-- The entries at the leaves, from left to right. -/
def leaves : Tree → List Text
  | leaf h => [h]
  | node l r => l.leaves ++ r.leaves

/-- The texts that a tree joins. -/
def texts : Tree → List Text
  | leaf _ => []
  | node l r => (l.hash ++ r.hash) :: (l.texts ++ r.texts)

/-- All leaves lie `depth` levels below the root. -/
def Perfect : (depth : Nat) → Tree → Prop
  | 0, leaf _ => True
  | depth + 1, node l r => Perfect depth l ∧ Perfect depth r
  | _, _ => False

theorem perfect_leaf {depth : Nat} {h : Text} : Perfect depth (leaf h) ↔ depth = 0 := by
  cases depth <;> simp [Perfect]

theorem perfect_node {depth : Nat} {l r : Tree} :
    Perfect depth (node l r) ↔ ∃ below, depth = below + 1 ∧ Perfect below l ∧ Perfect below r := by
  cases depth <;> simp [Perfect]

/-- The trees of one level of the fold. -/
def joinPairs : List Tree → List Tree
  | [] => []
  | [t] => [node t t]
  | s :: t :: rest => node s t :: joinPairs rest

theorem length_joinPairs (ts : List Tree) : (joinPairs ts).length = (ts.length + 1) / 2 := by
  fun_induction joinPairs ts with
  | case1 => rfl
  | case2 => simp
  | case3 s t rest ih => simp only [List.length_cons, ih]; omega

/-- The tree of the fold, if there is anything to fold. -/
def ofList? : List Tree → Option Tree
  | [] => none
  | [t] => some t
  | s :: t :: rest => ofList? (joinPairs (s :: t :: rest))
termination_by ts => ts.length
decreasing_by simp only [length_joinPairs, List.length_cons]; omega

/-! ## The tree of a list

What holds of the trees at the bottom of the fold holds, level by level, of the tree at its top.
-/

theorem map_hash_joinPairs (ts : List Tree) :
    (joinPairs ts).map hash = Fingerprint.joinPairs (ts.map hash) := by
  fun_induction joinPairs ts <;> simp_all [Fingerprint.joinPairs, hash]

/-- The root of a list is the fingerprint of its tree. -/
theorem root_eq_hash {ts : List Tree} {t : Tree} (h : ofList? ts = some t) :
    root (ts.map hash) = t.hash := by
  fun_induction ofList? ts with
  | case1 => simp at h
  | case2 u =>
    cases h
    simp [root]
  | case3 u v rest ih =>
    rw [List.map_cons, List.map_cons, root, ← List.map_cons, ← List.map_cons, ← map_hash_joinPairs]
    exact ih h

/-- There is a tree for every list that is not empty. -/
theorem exists_ofList? {ts : List Tree} (h : ts ≠ []) : ∃ t, ofList? ts = some t := by
  fun_induction ofList? ts with
  | case1 => exact absurd rfl h
  | case2 t => exact ⟨t, rfl⟩
  | case3 s t rest ih => exact ih (by simp [joinPairs])

theorem perfect_joinPairs {depth : Nat} {ts : List Tree} (h : ∀ t ∈ ts, Perfect depth t) :
    ∀ t ∈ joinPairs ts, Perfect (depth + 1) t := by
  fun_induction joinPairs ts with
  | case1 => simp
  | case2 t => simpa [Perfect] using h
  | case3 s t rest ih =>
    simp only [List.mem_cons, forall_eq_or_imp] at h ⊢
    exact ⟨⟨h.1, h.2.1⟩, ih h.2.2⟩

/-- The tree of a list is perfect, and its depth depends on the length of the list only. -/
theorem perfect_of_ofList? {depth : Nat} {ts : List Tree} {t : Tree} (h : ofList? ts = some t)
    (hts : ∀ t ∈ ts, Perfect depth t) : Perfect (depth + Nat.clog 2 ts.length) t := by
  fun_induction ofList? ts generalizing depth with
  | case1 => simp at h
  | case2 u =>
    cases h
    simpa using hts
  | case3 u v rest ih =>
    -- one level down, the length is halved and rounded up, so its logarithm is one less
    have hclog : Nat.clog 2 (u :: v :: rest).length =
        Nat.clog 2 (joinPairs (u :: v :: rest)).length + 1 := by
      rw [length_joinPairs, Nat.clog_of_two_le (by omega) (by simp)]
      congr 2
    rw [hclog, show depth + (Nat.clog 2 (joinPairs (u :: v :: rest)).length + 1) =
      depth + 1 + Nat.clog 2 (joinPairs (u :: v :: rest)).length from by omega]
    exact ih h (perfect_joinPairs hts)

theorem prefix_leaves_joinPairs (ts : List Tree) :
    ts.flatMap leaves <+: (joinPairs ts).flatMap leaves := by
  fun_induction joinPairs ts with
  | case1 => simp
  | case2 t => simp [leaves]
  | case3 s t rest ih => simpa [leaves, List.prefix_append_right_inj] using ih

theorem leaves_joinPairs_subset (ts : List Tree) :
    (joinPairs ts).flatMap leaves ⊆ ts.flatMap leaves := by
  fun_induction joinPairs ts with
  | case1 => simp
  | case2 t => simp [leaves]
  | case3 s t rest ih =>
    simp only [List.flatMap_cons, leaves, List.append_assoc]
    intro h hm
    simp only [List.mem_append] at hm ⊢
    exact hm.imp_right (Or.imp_right fun hrest => ih hrest)

/-- The leaves of a tree start with the entries of the list and only repeat them. -/
theorem leaves_of_ofList? {ts : List Tree} {t : Tree} (h : ofList? ts = some t) :
    ts.flatMap leaves <+: t.leaves ∧ t.leaves ⊆ ts.flatMap leaves := by
  fun_induction ofList? ts with
  | case1 => simp at h
  | case2 u =>
    cases h
    simp
  | case3 u v rest ih =>
    obtain ⟨hstart, hsubset⟩ := ih h
    exact ⟨(prefix_leaves_joinPairs _).trans hstart,
      List.Subset.trans hsubset (leaves_joinPairs_subset _)⟩

theorem texts_joinPairs_subset (ts : List Tree) :
    (joinPairs ts).flatMap texts ⊆ joinedTexts (ts.map hash) ++ ts.flatMap texts := by
  fun_induction joinPairs ts with
  | case1 => simp
  | case2 t => simp [texts, joinedTexts]
  | case3 s t rest ih =>
    simp only [List.flatMap_cons, texts, List.map_cons, joinedTexts]
    intro x hx
    have := @ih x
    simp only [List.mem_append, List.mem_cons] at hx this ⊢
    tauto

/-- A tree joins the texts that the fold joins. -/
theorem texts_of_ofList? {ts : List Tree} {t : Tree} (h : ofList? ts = some t) :
    t.texts ⊆ foldedTexts (ts.map hash) ++ ts.flatMap texts := by
  fun_induction ofList? ts with
  | case1 => simp at h
  | case2 u =>
    cases h
    simp
  | case3 u v rest ih =>
    rw [List.map_cons, List.map_cons, foldedTexts, ← List.map_cons, ← List.map_cons,
      ← map_hash_joinPairs]
    intro x hx
    have hpairs := @texts_joinPairs_subset (u :: v :: rest) x
    have hx := ih h hx
    simp only [List.mem_append] at hx hpairs ⊢
    tauto

/-! ## Equal roots -/

theorem length_hash {t : Tree} (h : ∀ a ∈ t.leaves, a.length = 8) : t.hash.length = 8 := by
  cases t with
  | leaf a => exact h a (List.mem_singleton.mpr rfl)
  | node l r => exact length_fingerprint _

/-- Perfect trees with one fingerprint are equal, unless they have different depths and a leaf of
one of them is the fingerprint of a text that the other one joins. -/
theorem eq_or_isJoined {all : List Text} (hall : CollisionFree all) {m n : Nat} {t u : Tree}
    (htall : t.texts ⊆ all) (huall : u.texts ⊆ all) (ht : Perfect m t) (hu : Perfect n u)
    (htlen : ∀ a ∈ t.leaves, a.length = 8) (hulen : ∀ a ∈ u.leaves, a.length = 8)
    (h : t.hash = u.hash) :
    t = u ∨ m ≠ n ∧ (IsJoined t.leaves u.texts ∨ IsJoined u.leaves t.texts) := by
  induction t generalizing m n u with
  | leaf a =>
    cases u with
    | leaf b => exact .inl (congrArg leaf h)
    -- the root is an entry on one side and the fingerprint of a join on the other
    | node l r =>
      obtain ⟨n, rfl, -⟩ := perfect_node.mp hu
      have hm : m = 0 := perfect_leaf.mp ht
      exact .inr ⟨by omega, .inl ⟨a, List.mem_singleton.mpr rfl, _, List.mem_cons_self, h⟩⟩
  | node l r ihl ihr =>
    cases u with
    | leaf b =>
      obtain ⟨m, rfl, -⟩ := perfect_node.mp ht
      have hn : n = 0 := perfect_leaf.mp hu
      exact .inr ⟨by omega, .inr ⟨b, List.mem_singleton.mpr rfl, _, List.mem_cons_self, h.symm⟩⟩
    | node l' r' =>
      obtain ⟨m, rfl, htl, htr⟩ := perfect_node.mp ht
      obtain ⟨n, rfl, hul, hur⟩ := perfect_node.mp hu
      simp only [texts, List.cons_subset, List.append_subset] at htall huall
      simp only [leaves, List.mem_append, or_imp, forall_and] at htlen hulen
      -- without collisions the joined texts are the same, and both halves have eight digits
      have htext : l.hash ++ r.hash = l'.hash ++ r'.hash := hall _ htall.1 _ huall.1 h
      obtain ⟨hl, hr⟩ := List.append_inj htext
        ((length_hash htlen.1).trans (length_hash hulen.1).symm)
      -- a subtree in which the trees differ has its leaves and joined texts from the whole tree
      have hleaves : ∀ s s' : Tree, s.leaves ⊆ (node s s').leaves ∧ s'.leaves ⊆ (node s s').leaves :=
        fun s s' => ⟨List.subset_append_left _ _, List.subset_append_right _ _⟩
      have htexts : ∀ s s' : Tree, s.texts ⊆ (node s s').texts ∧ s'.texts ⊆ (node s s').texts :=
        fun s s' => by simp [texts, List.subset_def]; tauto
      rcases ihl htall.2.1 huall.2.1 htl hul htlen.1 hulen.1 hl with rfl | ⟨hne, hmixed⟩
      · rcases ihr htall.2.2 huall.2.2 htr hur htlen.2 hulen.2 hr with rfl | ⟨hne, hmixed⟩
        · exact .inl rfl
        · exact .inr ⟨by omega, hmixed.imp (·.mono (hleaves _ _).2 (htexts _ _).2)
            (·.mono (hleaves _ _).2 (htexts _ _).2)⟩
      · exact .inr ⟨by omega, hmixed.imp (·.mono (hleaves _ _).1 (htexts _ _).1)
          (·.mono (hleaves _ _).1 (htexts _ _).1)⟩

end Tree

/-! ## What a root tells of its list -/

/-- The tree of the fold of a list. -/
def foldTree? (hs : List Text) : Option Tree :=
  Tree.ofList? (hs.map .leaf)

/-- Every list that is not empty has a tree: perfect, with the root of the list as its fingerprint,
with leaves that start with the entries and only repeat them, and with the texts that the fold of the
list joins. -/
theorem exists_tree {hs : List Text} (h : hs ≠ []) :
    ∃ t, foldTree? hs = some t ∧ t.hash = root hs ∧ t.Perfect (Nat.clog 2 hs.length) ∧
      hs <+: t.leaves ∧ t.leaves ⊆ hs ∧ t.texts ⊆ foldedTexts hs := by
  have hhash : (hs.map Tree.leaf).map Tree.hash = hs := by simp [Function.comp_def, Tree.hash]
  have hleaves : (hs.map Tree.leaf).flatMap Tree.leaves = hs := by
    simp [List.flatMap_map, Tree.leaves, List.flatMap_singleton']
  have htexts : (hs.map Tree.leaf).flatMap Tree.texts = [] := by simp [Tree.texts]
  have hne : hs.map Tree.leaf ≠ [] := by simpa using h
  obtain ⟨t, ht⟩ := Tree.exists_ofList? hne
  have hroot := Tree.root_eq_hash ht
  have hperfect : t.Perfect (0 + Nat.clog 2 (hs.map Tree.leaf).length) :=
    Tree.perfect_of_ofList? ht (by simp [Tree.Perfect])
  have hsub := Tree.leaves_of_ofList? ht
  have htsub := Tree.texts_of_ofList? ht
  rw [hhash] at hroot
  rw [List.length_map, Nat.zero_add] at hperfect
  rw [hleaves] at hsub
  rw [hhash, htexts, List.append_nil] at htsub
  exact ⟨t, ht, hroot.symm, hperfect, hsub.1, hsub.2, htsub⟩

/-- The second list is the first one, followed by entries of it. -/
def Repeats (hs more : List Text) : Prop :=
  hs <+: more ∧ more ⊆ hs

/-- Lists with one root are equal if they have one length. Otherwise they have one tree and one
repeats the other, or an entry of one is the fingerprint of a text that the fold of the other
joins. -/
theorem eq_or_repeats_of_root_eq {all hs hs' : List Text} (hall : CollisionFree all)
    (hfold : foldedTexts hs ⊆ all) (hfold' : foldedTexts hs' ⊆ all)
    (hlen : ∀ a ∈ hs, a.length = 8) (hlen' : ∀ a ∈ hs', a.length = 8)
    (hne : hs ≠ []) (hne' : hs' ≠ []) (h : root hs = root hs') :
    (hs.length = hs'.length → hs = hs') ∧
      (foldTree? hs = foldTree? hs' ∧ (Repeats hs hs' ∨ Repeats hs' hs) ∨
        IsJoined hs (foldedTexts hs') ∨ IsJoined hs' (foldedTexts hs)) := by
  obtain ⟨t, ht, htroot, htperfect, htstart, htsub, httexts⟩ := exists_tree hne
  obtain ⟨u, hu, huroot, huperfect, hustart, husub, hutexts⟩ := exists_tree hne'
  have hcases := Tree.eq_or_isJoined hall (List.Subset.trans httexts hfold)
    (List.Subset.trans hutexts hfold') htperfect huperfect (fun a ha => hlen a (htsub ha))
    (fun a ha => hlen' a (husub ha)) (by rw [htroot, huroot, h])
  rcases hcases with rfl | ⟨hdepth, hjoined⟩
  · -- both lists start the leaves of one tree, which only repeat either of them
    refine ⟨fun hl => ?_, .inl ⟨ht.trans hu.symm, ?_⟩⟩
    · exact (List.prefix_of_prefix_length_le htstart hustart hl.le).eq_of_length hl
    · rcases List.prefix_or_prefix_of_prefix htstart hustart with hle | hle
      · exact .inl ⟨hle, fun a ha => htsub (hustart.subset ha)⟩
      · exact .inr ⟨hle, fun a ha => husub (htstart.subset ha)⟩
  · -- trees of different depths come from lists of different lengths
    refine ⟨fun hl => absurd (by rw [hl]) hdepth, .inr ?_⟩
    exact hjoined.imp (·.mono htsub hutexts) (·.mono husub httexts)

end Fingerprint

end SourceIndex
