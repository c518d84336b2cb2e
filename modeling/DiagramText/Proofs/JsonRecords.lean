import DiagramText.Json
import Mathlib.Data.List.Forall2
import Mathlib.Data.List.Nodup

namespace DiagramText.Json

/-- The same document. The members of objects may stand in any order. -/
inductive Same : Json → Json → Prop
  | null : Same null null
  | bool (b : Bool) : Same (bool b) (bool b)
  | nat (n : Nat) : Same (nat n) (nat n)
  | number (x : Binary64) : Same (number x) (number x)
  | string (s : String) : Same (string s) (string s)
  | array {js ks : List Json} : List.Forall₂ Same js ks → Same (array js) (array ks)
  | object {ms ns : List (String × Json)} :
      (∀ key, Option.Rel Same (ms.lookup key) (ns.lookup key)) → Same (object ms) (object ns)

inductive WellKeyed : Json → Prop
  | null : WellKeyed null
  | bool (b : Bool) : WellKeyed (bool b)
  | nat (n : Nat) : WellKeyed (nat n)
  | number (x : Binary64) : WellKeyed (number x)
  | string (s : String) : WellKeyed (string s)
  | array {js : List Json} : (∀ j ∈ js, WellKeyed j) → WellKeyed (array js)
  | object {ms : List (String × Json)} :
      (ms.map Prod.fst).Nodup → (∀ m ∈ ms, WellKeyed m.2) → WellKeyed (object ms)

theorem mem_of_lookup {key : String} {j : Json} {ms : List (String × Json)}
    (h : ms.lookup key = some j) : (key, j) ∈ ms := by
  obtain ⟨before, after, rfl, -⟩ := List.lookup_eq_some_iff.1 h
  simp

theorem sizeOf_lt_of_lookup {key : String} {j : Json} {ms : List (String × Json)}
    (h : ms.lookup key = some j) : sizeOf j < sizeOf ms := by
  have hlt := List.sizeOf_lt_of_mem (mem_of_lookup h)
  rw [Prod.mk.sizeOf_spec] at hlt
  omega

theorem Same.refl (j : Json) : Same j j :=
  match j with
  | .null => .null
  | .bool b => .bool b
  | .nat n => .nat n
  | .number x => .number x
  | .string s => .string s
  | .array js => .array (List.forall₂_same.2 fun j _ ↦ Same.refl j)
  | .object ms => .object fun key ↦
    match h : ms.lookup key with
    | none => .none
    | some j =>
      have := sizeOf_lt_of_lookup h
      .some (Same.refl j)
termination_by j

theorem Same.rel_lookup {ms ns : List (String × Json)} (h : Same (.object ms) (.object ns))
    (key : String) : Option.Rel Same (ms.lookup key) (ns.lookup key) := by
  cases h with
  | object hms => exact hms key

variable {α β : Type} {f : α → Json}

/-- Values are written as documents with keys of their own, no two of them as the same document. -/
structure Faithful (f : α → Json) : Prop where
  wellKeyed : ∀ a, (f a).WellKeyed
  eq_of_same : ∀ a b, Same (f a) (f b) → a = b

theorem faithful_bool : Faithful bool := by
  refine ⟨.bool, ?_⟩
  intro a b h
  cases h
  rfl

theorem faithful_nat : Faithful nat := by
  refine ⟨.nat, ?_⟩
  intro m n h
  cases h
  rfl

theorem faithful_number : Faithful number := by
  refine ⟨.number, ?_⟩
  intro x y h
  cases h
  rfl

theorem faithful_string : Faithful string := by
  refine ⟨.string, ?_⟩
  intro s t h
  cases h
  rfl

namespace Faithful

theorem comp {g : β → α} (hf : Faithful f) (hg : Function.Injective g) :
    Faithful fun b ↦ f (g b) := by
  refine ⟨fun b ↦ hf.wellKeyed (g b), ?_⟩
  intro a b h
  exact hg (hf.eq_of_same _ _ h)

theorem array (hf : Faithful f) : Faithful fun as : List α ↦ .array (as.map f) := by
  constructor
  · intro as
    apply WellKeyed.array
    rw [List.forall_mem_map]
    intro a _
    exact hf.wellKeyed a
  · intro as bs h
    cases h with
    | array hs =>
      rw [List.forall₂_map_left_iff, List.forall₂_map_right_iff] at hs
      exact List.forall₂_eq_eq_eq ▸ hs.imp hf.eq_of_same

theorem ofOption (hf : Faithful f) (hn : ∀ a, ¬Same (f a) .null ∧ ¬Same .null (f a)) :
    Faithful (ofOption f) := by
  constructor
  · intro o
    cases o with
    | none => exact .null
    | some a => exact hf.wellKeyed a
  · intro o p h
    cases o with
    | none =>
      cases p with
      | none => rfl
      | some b => exact absurd h (hn b).2
    | some a =>
      cases p with
      | none => exact absurd h (hn a).1
      | some b => exact congrArg some (hf.eq_of_same a b h)

theorem rel_map_iff (hf : Faithful f) {o p : Option α} :
    Option.Rel Same (o.map f) (p.map f) ↔ o = p := by
  constructor
  · intro h
    cases o with
    | none =>
      cases p with
      | none => rfl
      | some b => cases h
    | some a =>
      cases p with
      | none => cases h
      | some b =>
        cases h with
        | some h => exact congrArg some (hf.eq_of_same a b h)
  · intro h
    rw [h]
    cases p with
    | none => exact .none
    | some b => exact .some (Same.refl (f b))

end Faithful

/-- A field of a record: its key, and what a record has there, if anything. -/
structure Field (β : Type) where
  key : String
  value : β → Option Json
  wellKeyed : ∀ b, ∀ j ∈ value b, j.WellKeyed

namespace Field

def required (key : String) (hf : Faithful f) (part : β → α) : Field β where
  key := key
  value b := some (f (part b))
  wellKeyed := by
    intro b j hj
    obtain rfl := Option.some.inj hj
    exact hf.wellKeyed (part b)

def optional (key : String) (hf : Faithful f) (part : β → Option α) : Field β where
  key := key
  value b := (part b).map f
  wellKeyed := by
    intro b j hj
    obtain ⟨a, -, rfl⟩ := Option.map_eq_some_iff.1 hj
    exact hf.wellKeyed a

def members (fields : List (Field β)) (b : β) : List (String × Json) :=
  fields.flatMap fun field ↦ member? field.key id (field.value b)

theorem members_append (fields fields' : List (Field β)) (b : β) :
    members (fields ++ fields') b = members fields b ++ members fields' b :=
  List.flatMap_append

def Agree (field : Field β) (a b : β) : Prop :=
  Option.Rel Same (field.value a) (field.value b)

variable {fields : List (Field β)} {a b : β}

@[simp] theorem members_nil : members [] b = [] := rfl

@[simp] theorem members_cons_required {key : String} {hf : Faithful f} {part : β → α} :
    members (required key hf part :: fields) b = (key, f (part b)) :: members fields b :=
  List.flatMap_cons

@[simp] theorem members_cons_optional {key : String} {hf : Faithful f} {part : β → Option α} :
    members (optional key hf part :: fields) b = member? key f (part b) ++ members fields b := by
  have hmember : member? key id ((part b).map f) = member? key f (part b) := by
    cases part b with
    | none => rfl
    | some a => rfl
  rw [← hmember]
  exact List.flatMap_cons

@[simp] theorem agree_optional_iff {key : String} {hf : Faithful f} {part : β → Option α} :
    (optional key hf part).Agree a b ↔ part a = part b :=
  hf.rel_map_iff

@[simp] theorem agree_required_iff {key : String} {hf : Faithful f} {part : β → α} :
    (required key hf part).Agree a b ↔ part a = part b := by
  rw [← Option.some_inj]
  exact hf.rel_map_iff (o := some (part a)) (p := some (part b))

theorem keys_member? (key : String) (o : Option Json) :
    ((member? key id o).map Prod.fst).Sublist [key] := by
  cases o with
  | none => exact List.nil_sublist _
  | some j => exact .refl _

theorem keys_members (fields : List (Field β)) (b : β) :
    ((members fields b).map Prod.fst).Sublist (fields.map key) := by
  induction fields with
  | nil => exact .slnil
  | cons field fields ih =>
    rw [members, List.flatMap_cons, List.map_append]
    exact (keys_member? field.key (field.value b)).append ih

theorem wellKeyed_of_mem_members {m : String × Json} (h : m ∈ members fields b) :
    m.2.WellKeyed := by
  obtain ⟨field, -, hm⟩ := List.mem_flatMap.1 h
  cases hj : field.value b with
  | none =>
    rw [hj] at hm
    cases hm
  | some j =>
    rw [hj] at hm
    obtain rfl := List.mem_singleton.1 hm
    exact field.wellKeyed b j hj

theorem lookup_member? (key : String) (o : Option Json) : (member? key id o).lookup key = o := by
  cases o with
  | none => rfl
  | some j => exact List.lookup_cons_self

theorem lookup_eq_none {key : String} {ms : List (String × Json)} (h : key ∉ ms.map Prod.fst) :
    ms.lookup key = none := by
  rw [List.lookup_eq_none_iff]
  intro m hm
  rw [bne_iff_ne]
  rintro rfl
  exact h (List.mem_map_of_mem hm)

theorem lookup_members (hkeys : (fields.map key).Nodup) {field : Field β} (h : field ∈ fields)
    (b : β) : (members fields b).lookup field.key = field.value b := by
  induction fields with
  | nil => cases h
  | cons first fields ih =>
    rw [List.map_cons, List.nodup_cons] at hkeys
    obtain ⟨hfirst, hkeys⟩ := hkeys
    rw [members, List.flatMap_cons, List.lookup_append]
    rcases List.mem_cons.1 h with rfl | h
    · have hrest : (members fields b).lookup field.key = none :=
        lookup_eq_none fun hm ↦ hfirst ((keys_members fields b).subset hm)
      rw [lookup_member?]
      exact (congrArg _ hrest).trans (Option.or_none)
    · have hne : field.key ∉ (member? first.key id (first.value b)).map Prod.fst := by
        intro hm
        have heq := List.mem_singleton.1 ((keys_member? first.key (first.value b)).subset hm)
        exact hfirst (heq ▸ List.mem_map_of_mem h)
      rw [lookup_eq_none hne, Option.none_or]
      exact ih hkeys h

end Field

/-- A record is written faithfully if its fields have keys of their own and tell it from all
others. -/
theorem Faithful.record {write : β → Json} (fields : List (Field β))
    (hwrite : ∀ b, write b = .object (Field.members fields b))
    (hkeys : (fields.map Field.key).Nodup)
    (hfields : ∀ a b, (∀ field ∈ fields, field.Agree a b) → a = b) : Faithful write := by
  constructor
  · intro b
    rw [hwrite]
    exact .object (hkeys.sublist (Field.keys_members fields b)) fun m hm ↦
      Field.wellKeyed_of_mem_members hm
  · intro a b h
    rw [hwrite, hwrite] at h
    apply hfields
    intro field hfield
    have hrel := h.rel_lookup field.key
    rw [Field.lookup_members hkeys hfield, Field.lookup_members hkeys hfield] at hrel
    exact hrel

end DiagramText.Json
