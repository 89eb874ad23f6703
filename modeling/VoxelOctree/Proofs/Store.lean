import Mathlib.Tactic.SplitIfs
import VoxelOctree.Store

namespace VoxelOctree

namespace Store

variable {s : Store} {l l' : Location} {content : List UInt8} {p : Path}

def IsRooted (s : Store) (l : Location) : Prop :=
  ∀ front, front <+: l → front ≠ l → s.isDirectory front = true

theorem isDirectory_of_entry (h : s.entry? l = some .directory) : s.isDirectory l = true := by
  unfold entry? at h
  split at h
  · cases h
  · split at h
    · cases h
    · split at h
      · assumption
      · cases h

theorem isRooted_nil : s.IsRooted [] := by
  intro front hf hne
  exact absurd (List.prefix_nil.mp hf) hne

theorem IsRooted.snoc (h : s.IsRooted l) (hl : s.isDirectory l = true) (name : Name) : s.IsRooted (l ++ [name]) := by
  intro front hf hne
  rcases List.prefix_concat_iff.mp hf with rfl | hf
  · exact absurd rfl hne
  · by_cases he : front = l
    · rwa [he]
    · exact h front hf he

theorem IsRooted.dropLast (h : s.IsRooted l) : s.IsRooted l.dropLast := by
  intro front hf hne
  refine h front (hf.trans l.dropLast_prefix) ?_
  rintro rfl
  exact hne (hf.eq_of_length_le (by simp))

theorem step_eq_ok {name : Name} (h : s.step l name = .ok l') :
    s.entry? l = some .directory ∧ (l' = l ∨ l' = l.dropLast ∨ ∃ last, l' = l ++ [last]) := by
  unfold step at h
  split at h
  · cases h
  · cases h
  · next he =>
    refine ⟨he, ?_⟩
    split_ifs at h <;> cases h
    · exact .inl rfl
    · exact .inl rfl
    · exact .inr (.inr ⟨name, rfl⟩)
    · exact .inr (.inl rfl)
    · exact .inr (.inr ⟨name, rfl⟩)

theorem IsRooted.step {name : Name} (h : s.IsRooted l) (hs : s.step l name = .ok l') : s.IsRooted l' := by
  obtain ⟨he, rfl | rfl | ⟨last, rfl⟩⟩ := step_eq_ok hs
  · exact h
  · exact h.dropLast
  · exact h.snoc (isDirectory_of_entry he) last

theorem foldlM_cons_iff {names : List Name} {name : Name} :
    (name :: names).foldlM s.step l = .ok l' ↔
      ∃ next, s.step l name = .ok next ∧ names.foldlM s.step next = .ok l' := by
  rw [List.foldlM_cons]
  cases s.step l name with
  | error e => exact ⟨nofun, nofun⟩
  | ok next => simp [bind, Except.bind]

theorem IsRooted.foldlM {names : List Name} (h : s.IsRooted l) (hs : names.foldlM s.step l = .ok l') :
    s.IsRooted l' := by
  induction names generalizing l with
  | nil =>
    cases hs
    exact h
  | cons name names ih =>
    obtain ⟨next, hn, hs⟩ := foldlM_cons_iff.mp hs
    exact ih (h.step hn) hs

theorem resolve_eq_ok_iff : s.resolve p = .ok l ↔ p.bytes.contains 0 = false ∧ p.bytes.length ≤ maxPathLength ∧
    p.names.foldlM s.step (if p.isAbsolute then [root] else []) = .ok l := by
  rw [resolve, follow]
  by_cases hzero : p.bytes.contains 0 = true
  · simp only [hzero, ↓reduceIte, reduceCtorEq, false_and]
  · by_cases hlong : maxPathLength < p.bytes.length
    · simp only [hzero, hlong, Nat.not_le_of_lt hlong, ↓reduceIte, reduceCtorEq, Bool.false_eq_true, false_and,
        and_false]
    · simp only [hzero, hlong, Nat.le_of_not_lt hlong, ↓reduceIte, Bool.false_eq_true, true_and]

theorem isRooted_of_resolve (h : s.resolve p = .ok l) : s.IsRooted l := by
  obtain ⟨-, -, hs⟩ := resolve_eq_ok_iff.mp h
  refine IsRooted.foldlM ?_ hs
  split_ifs
  · exact isRooted_nil.snoc rfl root
  · exact isRooted_nil

theorem find_replace (files : List (Location × List UInt8)) (l : Location) (content : List UInt8) (a : Location) :
    (files.map fun f => if f.1 = l then (l, content) else f).find? (fun f => decide (f.1 = a)) =
      (files.find? fun f => decide (f.1 = a)).map fun f => if f.1 = l then (l, content) else f := by
  have hsame : ((fun f : Location × List UInt8 => decide (f.1 = a)) ∘ fun f => if f.1 = l then (l, content) else f) =
      fun f => decide (f.1 = a) := by
    funext f
    simp only [Function.comp_apply]
    split_ifs with hf
    · rw [hf]
    · rfl
  rw [List.find?_map, hsame]

theorem location_of_find {files : List (Location × List UInt8)} {a : Location} {f : Location × List UInt8}
    (h : files.find? (fun f => decide (f.1 = a)) = some f) : f.1 = a := by
  have hf := List.find?_some h
  exact of_decide_eq_true hf

theorem find_put_of_ne (content : List UInt8) {a : Location} (ha : a ≠ l) :
    (s.put l content).files.find? (fun f => decide (f.1 = a)) = s.files.find? fun f => decide (f.1 = a) := by
  unfold put
  split_ifs with hnull hfile
  · rfl
  · rw [find_replace]
    cases hfind : s.files.find? fun f => decide (f.1 = a) with
    | none => rfl
    | some f => simp only [Option.map_some, location_of_find hfind, ha, ↓reduceIte]
  · simp [List.find?_append, Ne.symm ha]

theorem find_put_self (content : List UInt8) (hl : l ≠ nullDevice) :
    (s.put l content).files.find? (fun f => decide (f.1 = l)) = some (l, content) := by
  have hexists : s.files.any (fun f => decide (f.1 = l)) = (s.files.find? fun f => decide (f.1 = l)).isSome := by
    rw [Bool.eq_iff_iff, List.any_eq_true, List.find?_isSome]
  rw [put, if_neg hl, hexists]
  cases hfind : s.files.find? fun f => decide (f.1 = l) with
  | none => simp [List.find?_append, hfind]
  | some f => simp only [Option.isSome_some, ↓reduceIte, find_replace, hfind, Option.map_some, location_of_find hfind]

theorem entry_put_self (content : List UInt8) (hl : l ≠ nullDevice) :
    Store.entry? (s.put l content) l = some (.file content) := by
  unfold entry?
  rw [if_neg hl, find_put_self content hl]

section Put

variable (content) (hl : s.IsRooted l)

include hl

theorem isDirectory_put (a : Location) : (s.put l content).isDirectory a = s.isDirectory a := by
  unfold put
  split_ifs with hnull hfile
  · rfl
  · have hlocations : (fun f : Location × List UInt8 => a.isPrefixOf (if f.1 = l then (l, content) else f).1 &&
        decide (a ≠ (if f.1 = l then (l, content) else f).1)) = fun f => a.isPrefixOf f.1 && decide (a ≠ f.1) := by
      funext f
      split_ifs with hf
      · rw [hf]
      · rfl
    simp only [isDirectory, List.any_map, Function.comp_def, hlocations]
  · cases hprefix : a.isPrefixOf l && decide (a ≠ l) with
    | false => simp only [isDirectory, List.any_append, List.any_cons, List.any_nil, hprefix, Bool.or_false]
    | true =>
      rw [Bool.and_eq_true, decide_eq_true_eq, List.isPrefixOf_iff_prefix] at hprefix
      have ha := hl a hprefix.1 hprefix.2
      rw [ha]
      unfold isDirectory at ha ⊢
      simp only [List.any_append, ← Bool.or_assoc, ha, Bool.true_or]

theorem entry_put_of_ne {a : Location} (ha : a ≠ l) : Store.entry? (s.put l content) a = s.entry? a := by
  have hdirectory := isDirectory_put content hl a
  unfold entry?
  rw [hdirectory, find_put_of_ne content ha]

theorem step_put (he : s.entry? l ≠ some .directory) {a next : Location} {name : Name}
    (hs : s.step a name = .ok next) : (s.put l content).step a name = .ok next := by
  have ha : a ≠ l := by
    rintro rfl
    exact he (step_eq_ok hs).1
  rw [← hs, step, step, entry_put_of_ne content hl ha]

theorem foldlM_put (he : s.entry? l ≠ some .directory) {names : List Name} {a b : Location}
    (hs : names.foldlM s.step a = .ok b) : names.foldlM (s.put l content).step a = .ok b := by
  induction names generalizing a with
  | nil => exact hs
  | cons name names ih =>
    obtain ⟨next, hn, hs⟩ := foldlM_cons_iff.mp hs
    exact foldlM_cons_iff.mpr ⟨next, step_put content hl he hn, ih hs⟩

-- Directories stay directories, so every path that led somewhere still leads there.
theorem resolve_put (he : s.entry? l ≠ some .directory) {a : Location} (hp : s.resolve p = .ok a) :
    (s.put l content).resolve p = .ok a := by
  obtain ⟨hzero, hlong, hs⟩ := resolve_eq_ok_iff.mp hp
  exact resolve_eq_ok_iff.mpr ⟨hzero, hlong, foldlM_put content hl he hs⟩

end Put

theorem write_eq_ok {s' : Store} (h : s.write p content = .ok s') :
    p.endsInSlash = false ∧ ∃ l, s.resolve p = .ok l ∧ s.entry? l ≠ some .directory ∧ s' = s.put l content := by
  unfold write at h
  cases hslash : p.endsInSlash with
  | true =>
    rw [hslash, if_pos rfl] at h
    cases hf : s.follow p (p.names.dropLast ++ [Path.here]) <;> rw [hf] at h <;> cases h
  | false =>
    rw [hslash, if_neg Bool.false_ne_true] at h
    cases hp : s.resolve p with
    | error e =>
      rw [hp] at h
      cases h
    | ok l =>
      rw [hp] at h
      by_cases he : s.entry? l = some .directory
      · simp only [bind, Except.bind, he, ↓reduceIte] at h
        cases h
      · simp only [bind, Except.bind, he, ↓reduceIte] at h
        cases h
        exact ⟨rfl, l, rfl, he, rfl⟩

/-- What changes when a path led to a location and some content was written there. The null device takes everything and
keeps nothing. -/
structure Wrote (s s' : Store) (p : Path) (l : Location) (content : List UInt8) : Prop where
  other : ∀ a, a ≠ l → s'.entry? a = s.entry? a
  path : ∀ q a, s.resolve q = .ok a → s'.resolve q = .ok a
  lost : l = nullDevice → s' = s
  file : l ≠ nullDevice → s'.entry? l = some (.file content)
  readBack : l ≠ nullDevice → s'.read p = .ok content

theorem wrote_of_write {s' : Store} (h : s.write p content = .ok s') :
    ∃ l, s.resolve p = .ok l ∧ Wrote s s' p l content := by
  obtain ⟨hslash, l, hp, he, rfl⟩ := write_eq_ok h
  have hl := isRooted_of_resolve hp
  have hresolve (q : Path) (a : Location) (hq : s.resolve q = .ok a) := resolve_put content hl he hq
  refine ⟨l, hp, fun a => entry_put_of_ne content hl, hresolve, fun hnull => if_pos hnull,
    entry_put_self content, fun hnull => ?_⟩
  rw [read, hresolve p l hp]
  simp only [entry_put_self content hnull, hslash, Bool.false_eq_true, ↓reduceIte]

end Store

end VoxelOctree
