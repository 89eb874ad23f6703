import VoxelOctree.Json.Layout
import VoxelOctree.Proofs.Json.Numeral
import VoxelOctree.Record.Reader

namespace VoxelOctree

open Layout (Item)

namespace Json

open Numeral (Ended)

variable {α δ : Type} {blank rest s : List Char} {c : Char}

def Blank (s : List Char) : Prop :=
  ∀ c ∈ s, isBlank c = true

theorem blank_nil : Blank [] :=
  fun _ h => absurd h List.not_mem_nil

theorem skipBlank_append (h : Blank blank) (s : List Char) : skipBlank (blank ++ s) = skipBlank s :=
  List.dropWhile_append_of_pos h

theorem skipBlank_cons (h : isBlank c = false) (s : List Char) : skipBlank (c :: s) = c :: s := by
  rw [skipBlank, List.dropWhile_cons_of_neg (by rw [h]; exact Bool.false_ne_true)]

theorem ended_cons (h : c.isDigit = false ∧ c ≠ '.' ∧ Numeral.isExponentMark c = false) (s : List Char) :
    Ended (c :: s) := by
  rintro d ⟨⟩
  exact h

theorem isBlank_ended (h : isBlank c = true) :
    c.isDigit = false ∧ c ≠ '.' ∧ Numeral.isExponentMark c = false := by
  rw [isBlank, decide_eq_true_eq] at h
  rcases h with rfl | rfl | rfl | rfl <;> decide

theorem ended_append (h : Blank blank) (hs : Ended s) : Ended (blank ++ s) := by
  cases blank with
  | nil => exact hs
  | cons c blank => exact ended_cons (isBlank_ended (h c (List.mem_cons_self ..))) _

def readBack (isFinite : Bool) (a : α) : Except Cause α :=
  if isFinite then .ok a else .error .mismatch

theorem bind_readBack {β : Type} (isFinite : Bool) (a : α) (f : α × List Char → Except Cause β) :
    ((readBack isFinite a).map fun a => (a, rest)) >>= f = if isFinite then f (a, rest) else .error .mismatch := by
  cases isFinite <;> rfl

theorem bind_ok {β : Type} (a : α) (f : α → Except Cause β) : (Except.ok a >>= f) = f a :=
  rfl

/-- The reader takes the item off the front of a text. -/
structure Reads (read : Reader α) (item : Item) (isFinite : Bool) (a : α) : Prop where
  head (depth : Nat) : ∃ c s, item depth = c :: s ∧ isBlank c = false ∧ c ≠ ']'
  read_append (depth : Nat) {blank rest : List Char} : Blank blank → Ended rest →
    read (blank ++ (item depth ++ rest)) = (readBack isFinite a).map fun a => (a, rest)

theorem nextElement_close (isFirst : Bool) (h : Blank blank) :
    nextElement isFirst (blank ++ ']' :: rest) = .ok none := by
  rw [nextElement, skipBlank_append h, skipBlank_cons (by decide)]
  rfl

theorem closeArray_append (h : Blank blank) : closeArray (blank ++ ']' :: rest) = .ok rest := by
  rw [closeArray, skipBlank_append h, skipBlank_cons (by decide)]
  rfl

theorem openArray_append (h : Blank blank) : openArray (blank ++ '[' :: rest) = .ok rest := by
  rw [openArray, skipBlank_append h, skipBlank_cons (by decide)]
  rfl

section

variable {read : Reader α} {item : Item} {isFinite : Bool} {a : α} {depth : Nat}

theorem Reads.nextElement_first (h : Reads read item isFinite a) (hblank : Blank blank) :
    nextElement true (blank ++ (item depth ++ rest)) = .ok (some (item depth ++ rest)) := by
  obtain ⟨c, s, hitem, hc, hclose⟩ := h.head depth
  rw [nextElement, skipBlank_append hblank, hitem, List.cons_append, skipBlank_cons hc]
  simp only [hclose, ↓reduceIte]

theorem Reads.nextElement_next (h : Reads read item isFinite a) (hblank : Blank blank) :
    nextElement false (',' :: (blank ++ (item depth ++ rest))) = .ok (some (item depth ++ rest)) := by
  obtain ⟨c, s, hitem, hc, hclose⟩ := h.head depth
  rw [nextElement, skipBlank_cons (by decide)]
  simp only [show (',' : Char) ≠ ']' by decide, Bool.false_eq_true, ↓reduceIte]
  rw [skipBlank_append hblank, hitem, List.cons_append, skipBlank_cons hc]
  simp only [hclose, ↓reduceIte]

theorem Reads.read_item (h : Reads read item isFinite a) (hrest : Ended rest) :
    read (item depth ++ rest) = (readBack isFinite a).map fun a => (a, rest) := by
  exact h.read_append depth blank_nil hrest

theorem Reads.element_first (h : Reads read item isFinite a) (hblank : Blank blank) (hrest : Ended rest) :
    element true read (blank ++ (item depth ++ rest)) = (readBack isFinite a).map fun a => (a, rest) := by
  rw [element, h.nextElement_first hblank]
  exact h.read_item hrest

theorem Reads.element_next (h : Reads read item isFinite a) (hblank : Blank blank) (hrest : Ended rest) :
    element false read (',' :: (blank ++ (item depth ++ rest))) = (readBack isFinite a).map fun a => (a, rest) := by
  rw [element, h.nextElement_next hblank]
  exact h.read_item hrest

end

end Json

namespace Layout

open Json

variable {l : Layout} {depth : Nat} {rest : List Char}

structure IsBlank (l : Layout) : Prop where
  gap (depth : Nat) : Blank (l.gap depth)
  space : Blank l.space

theorem isBlank_choose (isPretty : Bool) : (choose isPretty).IsBlank := by
  cases isPretty with
  | false => exact ⟨fun _ => blank_nil, blank_nil⟩
  | true =>
    refine ⟨fun depth c hc => ?_, fun c hc => ?_⟩
    · rcases List.mem_cons.mp hc with rfl | hc
      · rfl
      · rw [List.eq_of_mem_replicate hc]
        rfl
    · rw [List.mem_singleton.mp hc]
      rfl

def more (l : Layout) (depth : Nat) (body : List Item) : List Char :=
  body.flatMap fun item => ',' :: (l.gap depth ++ item depth)

theorem items_cons (l : Layout) (depth : Nat) (item : Item) (body : List Item) :
    l.items depth (item :: body) = l.gap depth ++ (item depth ++ l.more depth body) := by
  induction body generalizing item with
  | nil => simp [items, more]
  | cons next body ih => simp [items, more, ih]

theorem enclosed_append (l : Layout) (opening closing : Char) (item : Item) (body : List Item) (depth : Nat)
    (rest : List Char) : l.enclosed opening closing (item :: body) depth ++ rest =
      opening :: (l.gap (depth + 1) ++ (item (depth + 1) ++
        (l.more (depth + 1) body ++ (l.gap depth ++ closing :: rest)))) := by
  simp [enclosed, items_cons]

theorem more_nil (l : Layout) (depth : Nat) (s : List Char) : l.more depth [] ++ s = s :=
  rfl

theorem more_cons (l : Layout) (depth : Nat) (item : Item) (body : List Item) (s : List Char) :
    l.more depth (item :: body) ++ s = ',' :: (l.gap depth ++ (item depth ++ (l.more depth body ++ s))) := by
  simp [more]

theorem length_le_more (l : Layout) (depth : Nat) (body : List Item) : body.length ≤ (l.more depth body).length := by
  induction body with
  | nil => exact Nat.zero_le _
  | cons item body ih =>
    have hmore := congrArg List.length (l.more_cons depth item body [])
    simp only [List.append_nil, List.length_cons, List.length_append] at hmore ⊢
    omega

theorem ended_more (l : Layout) (depth : Nat) (body : List Item) {s : List Char} (hs : Numeral.Ended s) :
    Numeral.Ended (l.more depth body ++ s) := by
  cases body with
  | nil => exact hs
  | cons item body => exact ended_cons (by decide) _

section

variable {α β : Type} {read : Reader α} {item : Item} {isFinite : Bool} {a : α} {s : List Char}
  (k : α × List Char → Except Cause β) (body : List Item)

theorem bind_element_first (hl : l.IsBlank) (h : Reads read item isFinite a) (hs : Numeral.Ended s) :
    (element true read (l.gap depth ++ (item depth ++ (l.more depth body ++ s))) >>= k) =
      if isFinite then k (a, l.more depth body ++ s) else .error .mismatch := by
  rw [h.element_first (hl.gap depth) (l.ended_more depth body hs), bind_readBack]

theorem bind_element_next (hl : l.IsBlank) (h : Reads read item isFinite a) (hs : Numeral.Ended s) :
    (element false read (l.more depth (item :: body) ++ s) >>= k) =
      if isFinite then k (a, l.more depth body ++ s) else .error .mismatch := by
  rw [more_cons, h.element_next (hl.gap depth) (l.ended_more depth body hs), bind_readBack]

end

theorem ended_close (hl : l.IsBlank) (depth : Nat) (rest : List Char) : Numeral.Ended (l.gap depth ++ ']' :: rest) :=
  ended_append (hl.gap depth) (ended_cons (by decide) _)

section

variable {α : Type} {read : Reader α} {f : α → Item} {ok : α → Bool}

theorem reads_vec3 (hl : l.IsBlank) (h : ∀ a, Reads read (f a) (ok a) a) (v : Vec3 α) :
    Reads (readVec3 read) (l.array (v.toList.map f)) (v.toList.all ok) v := by
  refine ⟨fun depth => ⟨'[', _, rfl, by decide, by decide⟩, ?_⟩
  intro depth blank rest hblank _
  have hend := ended_close hl depth rest
  rw [array, Vec3.toList, List.map_cons, List.map_cons, List.map_cons, List.map_nil, enclosed_append, readVec3,
    openArray_append hblank]
  simp only [bind_ok, bind_element_first _ _ hl (h v.x) hend, bind_element_next _ _ hl (h v.y) hend,
    bind_element_next _ _ hl (h v.z) hend, more_nil, closeArray_append (hl.gap depth), List.all_cons, List.all_nil,
    Bool.and_true]
  cases ok v.x <;> cases ok v.y <;> cases ok v.z <;> rfl

end

section

variable {α β : Type} {read : Reader β} {f : α → Item} {ok : α → Bool} {g : α → β}

theorem readElements_more (hl : l.IsBlank) (h : ∀ a, Reads read (f a) (ok a) (g a)) (as : List α) {count : Nat}
    (hcount : as.length < count) :
    readElements read count false (l.more (depth + 1) (as.map f) ++ (l.gap depth ++ ']' :: rest)) =
      (readBack (as.all ok) (as.map g)).map fun bs => (bs, rest) := by
  induction as generalizing count with
  | nil =>
    obtain ⟨count, rfl⟩ := Nat.exists_eq_add_one.mpr hcount
    rw [readElements, List.map_nil, more_nil, nextElement_close false (hl.gap depth), closeArray_append (hl.gap depth)]
    rfl
  | cons a as ih =>
    obtain ⟨count, rfl⟩ := Nat.exists_eq_add_one.mpr (Nat.zero_lt_of_lt hcount)
    have hend := l.ended_more (depth + 1) (as.map f) (ended_close hl depth rest)
    rw [readElements, List.map_cons, more_cons, (h a).nextElement_next (hl.gap (depth + 1))]
    simp only [bind_ok, (h a).read_item hend, bind_readBack, ih (Nat.lt_of_succ_lt_succ hcount), List.all_cons]
    cases ok a <;> cases as.all ok <;> rfl

theorem readElements_array (hl : l.IsBlank) (h : ∀ a, Reads read (f a) (ok a) (g a)) (as : List α) :
    ∃ s, l.array (as.map f) depth ++ rest = '[' :: s ∧
      readElements read (s.length + 1) true s = (readBack (as.all ok) (as.map g)).map fun bs => (bs, rest) := by
  cases as with
  | nil => exact ⟨']' :: rest, rfl, rfl⟩
  | cons a as =>
    have hend := l.ended_more (depth + 1) (as.map f) (ended_close hl depth rest)
    have hlen := l.length_le_more (depth + 1) (as.map f)
    refine ⟨_, enclosed_append .., ?_⟩
    rw [readElements, (h a).nextElement_first (hl.gap (depth + 1))]
    simp only [bind_ok, (h a).read_item hend, bind_readBack, List.all_cons]
    rw [readElements_more hl h as]
    · cases ok a <;> cases as.all ok <;> rfl
    · simp only [List.length_append, List.length_cons, List.length_map] at hlen ⊢
      omega

end

end Layout

namespace Json

variable {δ : Type} {member : List Char → δ → Member δ} {l : Layout} {depth : Nat} {rest : List Char}

def Plain (name : List Char) : Prop :=
  ∀ c ∈ name, c ≠ '"' ∧ c ≠ '\\' ∧ 0x20 ≤ c.toNat

instance (name : List Char) : Decidable (Plain name) :=
  List.decidableBAll (fun c => c ≠ '"' ∧ c ≠ '\\' ∧ 0x20 ≤ c.toNat) name

theorem quoted_scan {name : List Char} (h : Plain name) (isLoose : Bool) :
    Quoted.scan isLoose .plain (name ++ '"' :: rest) = .ok (name, rest) := by
  induction name with
  | nil => rfl
  | cons c name ih =>
    obtain ⟨hquote, hslash, hlow⟩ := h c (List.mem_cons_self ..)
    rw [List.cons_append, Quoted.scan, if_neg hquote, if_neg hslash, if_neg (by omega),
      ih fun d hd => h d (List.mem_cons_of_mem c hd)]
    rfl

theorem quoted_read {name : List Char} (h : Plain name) : Quoted.read (name ++ '"' :: rest) = .ok (name, rest) :=
  quoted_scan h false

theorem quoted_skip {name : List Char} (h : Plain name) : Quoted.skip (name ++ '"' :: rest) = .ok rest := by
  rw [Quoted.skip, quoted_scan h true]
  rfl

theorem colon_cons : colon (':' :: rest) = .ok rest := by
  rw [colon, skipBlank_cons (by decide)]
  rfl

inductive Fills (member : List Char → δ → Member δ) : δ → List (List Char × Item) → Bool → δ → Prop where
  | nil (draft : δ) : Fills member draft [] true draft
  | cons {α : Type} {name : List Char} {value : Item} {read : Reader α} {store : α → δ} {isFinite : Bool} {a : α}
      {draft final : δ} {fields : List (List Char × Item)} {areFinite : Bool} :
      Plain name → member name draft = .into none read store → Reads read value isFinite a →
      Fills member (store a) fields areFinite final →
      Fills member draft ((name, value) :: fields) (isFinite && areFinite) final

theorem nextName_first {blank : List Char} (h : Blank blank) :
    nextName true (blank ++ '"' :: rest) = .ok (.inl rest) := by
  rw [nextName, skipBlank_append h, skipBlank_cons (by decide)]
  rfl

theorem nextName_next {blank : List Char} (h : Blank blank) :
    nextName false (',' :: (blank ++ '"' :: rest)) = .ok (.inl rest) := by
  rw [nextName, skipBlank_cons (by decide)]
  simp only [show (',' : Char) ≠ '\x7d' by decide, Bool.false_eq_true, ↓reduceIte]
  rw [skipBlank_append h, skipBlank_cons (by decide)]
  rfl

theorem nextName_close {blank : List Char} (isFirst : Bool) (h : Blank blank) :
    nextName isFirst (blank ++ '\x7d' :: rest) = .ok (.inr rest) := by
  rw [nextName, skipBlank_append h, skipBlank_cons (by decide)]
  rfl

theorem readMembers_name {α : Type} {name s t : List Char} {value : Item} {read : Reader α} {store : α → δ}
    {isFinite isFirst : Bool} {a : α} {draft : δ} {count : Nat} (hname : Plain name)
    (hmember : member name draft = .into none read store) (hvalue : Reads read value isFinite a) (hl : l.IsBlank)
    (hnext : nextName isFirst s = .ok (.inl (name ++ '"' :: ':' :: (l.space ++ (value depth ++ t)))))
    (ht : Numeral.Ended t) : readMembers member (count + 1) isFirst draft s =
      if isFinite then readMembers member count false (store a) t else .error .mismatch := by
  rw [readMembers, hnext]
  simp only [bind_ok, quoted_read hname, hmember, Member.into, Option.isSome_none, Bool.false_eq_true, ↓reduceIte,
    colon_cons, hvalue.read_append depth hl.space ht]
  cases isFinite <;> rfl

theorem field_append (l : Layout) (name : List Char) (value : Item) (depth : Nat) (s : List Char) :
    l.field name value depth ++ s = '"' :: (name ++ '"' :: ':' :: (l.space ++ (value depth ++ s))) := by
  simp [Layout.field]

theorem ended_brace (hl : l.IsBlank) (depth : Nat) (rest : List Char) : Numeral.Ended (l.gap depth ++ '\x7d' :: rest) :=
  ended_append (hl.gap depth) (ended_cons (by decide) _)

namespace Fills

variable {draft final : δ} {fields : List (List Char × Item)} {isFinite : Bool}

theorem readMembers_more (h : Fills member draft fields isFinite final) (hl : l.IsBlank) {count : Nat}
    (hcount : fields.length < count) :
    readMembers member count false draft
        (l.more (depth + 1) (fields.map fun f => l.field f.1 f.2) ++ (l.gap depth ++ '\x7d' :: rest)) =
      (readBack isFinite final).map fun d => (d, rest) := by
  induction h generalizing count with
  | nil draft =>
    obtain ⟨count, rfl⟩ := Nat.exists_eq_add_one.mpr hcount
    rw [readMembers, List.map_nil, Layout.more_nil, nextName_close false (hl.gap depth)]
    rfl
  | @cons α name value read store isFinite a draft final fields areFinite hname hmember hvalue hfields ih =>
    obtain ⟨count, rfl⟩ := Nat.exists_eq_add_one.mpr (Nat.zero_lt_of_lt hcount)
    have hend := l.ended_more (depth + 1) (fields.map fun f => l.field f.1 f.2) (ended_brace hl depth rest)
    rw [List.map_cons, Layout.more_cons, field_append]
    rw [readMembers_name hname hmember hvalue hl (nextName_next (hl.gap (depth + 1))) hend,
      ih (Nat.lt_of_succ_lt_succ hcount)]
    cases isFinite <;> rfl

theorem reads_object {α : Type} {finish : δ → Option α} {array : Reader α} {field : List Char × Item} {a : α}
    (h : Fills member draft (field :: fields) isFinite final) (hfinish : finish final = some a) (hl : l.IsBlank) :
    Reads (readEither member draft finish array) (l.object (field :: fields)) isFinite a := by
  refine ⟨fun depth => ⟨'\x7b', _, rfl, by decide, by decide⟩, ?_⟩
  intro depth blank rest hblank _
  cases h with
  | @cons α' name value read store isFinite a' draft final fields areFinite hname hmember hvalue hfields =>
    have hend := l.ended_more (depth + 1) (fields.map fun f => l.field f.1 f.2) (ended_brace hl depth rest)
    have hlen := l.length_le_more (depth + 1) (fields.map fun f => l.field f.1 f.2)
    rw [Layout.object, List.map_cons, Layout.enclosed_append, readEither, skipBlank_append hblank,
      skipBlank_cons (by decide), field_append]
    simp only [↓reduceIte]
    rw [readMembers_name hname hmember hvalue hl (nextName_first (hl.gap (depth + 1))) hend,
      hfields.readMembers_more hl]
    · cases isFinite with
      | false => rfl
      | true =>
        cases areFinite with
        | false => rfl
        | true =>
          simp only [↓reduceIte, bind_readBack, hfinish]
          rfl
    · simp only [List.length_append, List.length_cons, List.length_map] at hlen ⊢
      omega

end Fills

end Json

end VoxelOctree
