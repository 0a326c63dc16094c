/-
# Values, the objects that they lead to, and other numbers for these

A value refers to objects by number.  This file sets up what it means that a value mentions an
object and that it leads to one through fields; and it defines the value that results when every
object gets another number, and the graphs that are copies of a part of another graph under other
numbers.
-/
import Mathlib.Data.Set.Function
import RemoteCall.Value

namespace RemoteCall

namespace Value

/-- The values that a collection is made of, in order: its items, or the keys and the values of its
entries. -/
def parts : Value → List Value
  | list items => items
  | set items => items
  | map entries => entries.flatMap fun e => e.1 :: e.2.toList
  | _ => []

lemma key_mem_parts {es : List (Value × Option Value)} {e : Value × Option Value} (he : e ∈ es) :
    e.1 ∈ (map es).parts :=
  List.mem_flatMap.mpr ⟨e, he, List.mem_cons_self⟩

lemma value_mem_parts {es : List (Value × Option Value)} {e : Value × Option Value} (he : e ∈ es)
    {v : Value} (hv : e.2 = some v) : v ∈ (map es).parts :=
  List.mem_flatMap.mpr ⟨e, he, List.mem_cons_of_mem _ (Option.mem_toList.mpr hv)⟩

lemma sizeOf_lt_of_mem_parts {v w : Value} (h : w ∈ v.parts) : sizeOf w < sizeOf v := by
  cases v with
  | list items | set items =>
    have hlt : sizeOf w < sizeOf items := List.sizeOf_lt_of_mem h
    simp only [list.sizeOf_spec, set.sizeOf_spec]
    omega
  | map entries =>
    obtain ⟨⟨k, u⟩, he, hw⟩ := List.mem_flatMap.mp h
    have hlt := List.sizeOf_lt_of_mem he
    simp only [Prod.mk.sizeOf_spec] at hlt
    rw [map.sizeOf_spec]
    rcases List.mem_cons.mp hw with rfl | hw
    · omega
    · cases u with
      | none => cases hw
      | some u =>
        rw [Option.toList_some, List.mem_singleton] at hw
        subst hw
        rw [Option.some.sizeOf_spec] at hlt
        omega
  | _ => cases h

/-- What holds of a value whenever it holds of all its parts, holds of every value. -/
theorem parts_induction {P : Value → Prop} (h : ∀ v, (∀ w ∈ v.parts, P w) → P v) (v : Value) :
    P v :=
  h v fun w _ => parts_induction h w
termination_by sizeOf v
decreasing_by exact sizeOf_lt_of_mem_parts ‹_›

/-- A value refers to an object, itself or in one of its parts. -/
inductive Mentions (id : Nat) : Value → Prop
  | object : Mentions id (.object id)
  | part {v w : Value} : w ∈ v.parts → Mentions id w → Mentions id v

lemma mentions_object {id i : Nat} (h : (object id).Mentions i) : i = id := by
  cases h with
  | object => rfl
  | part hw _ => exact absurd hw List.not_mem_nil

mutual

/-- The value with other numbers for its objects. -/
def rename (f : Nat → Nat) : Value → Value
  | list items => list (renameItems f items)
  | set items => set (renameItems f items)
  | map entries => map (renameEntries f entries)
  | object id => object (f id)
  | null => null
  | bool b => bool b
  | int i => int i
  | float bits => float bits
  | str s => str s
  | bytes b => bytes b
  | enum constant => enum constant
  termination_by structural v => v

/-- The items with other numbers for their objects. -/
def renameItems (f : Nat → Nat) : List Value → List Value
  | [] => []
  | v :: rest => rename f v :: renameItems f rest
  termination_by structural vs => vs

/-- The entries with other numbers for their objects. -/
def renameEntries (f : Nat → Nat) :
    List (Value × Option Value) → List (Value × Option Value)
  | [] => []
  | (k, none) :: rest => (rename f k, none) :: renameEntries f rest
  | (k, some v) :: rest => (rename f k, some (rename f v)) :: renameEntries f rest
  termination_by structural es => es

end

/-- A map entry with other numbers for its objects. -/
def renameEntry (f : Nat → Nat) (e : Value × Option Value) : Value × Option Value :=
  (e.1.rename f, e.2.map (rename f))

lemma renameItems_eq_map (f : Nat → Nat) (vs : List Value) :
    renameItems f vs = vs.map (rename f) := by
  induction vs with
  | nil => rfl
  | cons v rest ih => simp [renameItems, ih]

lemma renameEntries_eq_map (f : Nat → Nat) (es : List (Value × Option Value)) :
    renameEntries f es = es.map (renameEntry f) := by
  induction es with
  | nil => rfl
  | cons e rest ih =>
    obtain ⟨k, v⟩ := e
    cases v <;> simp [renameEntries, renameEntry, ih]

@[simp] lemma rename_list (f : Nat → Nat) (vs : List Value) :
    (list vs).rename f = list (vs.map (rename f)) := by
  rw [rename, renameItems_eq_map]

@[simp] lemma rename_set (f : Nat → Nat) (vs : List Value) :
    (set vs).rename f = set (vs.map (rename f)) := by
  rw [rename, renameItems_eq_map]

@[simp] lemma rename_map (f : Nat → Nat) (es : List (Value × Option Value)) :
    (map es).rename f = map (es.map (renameEntry f)) := by
  rw [rename, renameEntries_eq_map]

end Value

/-- A field with other numbers for its objects. -/
def Value.renameField (f : Nat → Nat) (e : String × Value) : String × Value :=
  (e.1, e.2.rename f)

/-- The object with other numbers for the objects in its fields. -/
def Node.rename (f : Nat → Nat) (o : Node) : Node :=
  { o with fields := o.fields.map (Value.renameField f) }

namespace Graph

/-- A value leads to an object: it is the object, or one of its parts leads there, or it is an
object with a field that leads there. -/
inductive Reaches (g : Graph) (id : Nat) : Value → Prop
  | object : Reaches g id (.object id)
  | part {v w : Value} : w ∈ v.parts → Reaches g id w → Reaches g id v
  | field {i : Nat} {o : Node} {e : String × Value} :
      g.get? i = some o → e ∈ o.fields → Reaches g id e.2 → Reaches g id (.object i)

/-- A set of objects that holds all objects which a value mentions, and with each object those that
its fields mention, holds all objects which the value leads to. -/
lemma Reaches.mem_of_closed {g : Graph} {id : Nat} {v : Value} {S : Nat → Prop}
    (h : g.Reaches id v) (hv : ∀ i, v.Mentions i → S i)
    (hS : ∀ i, S i → ∀ o, g.get? i = some o → ∀ e ∈ o.fields, ∀ j, e.2.Mentions j → S j) :
    S id := by
  induction h with
  | object => exact hv id .object
  | part hw _ ih => exact ih fun i hi => hv i (.part hw hi)
  | @field i o e ho he _ ih => exact ih fun j hj => hS i (hv i .object) o ho e he j hj

/-- The graph `h` is a copy of what some values lead to in `g`, under the numbers `f`: these are a
bijection between the objects that the values lead to and all objects of `h`, and each object of `h`
has the type, and in order the fields, of the object that it is a copy of. -/
structure IsCopy (g : Graph) (f : Nat → Nat) (values : List Value) (h : Graph) : Prop where
  bijOn : Set.BijOn f {id | ∃ v ∈ values, g.Reaches id v} {n | n < h.size}
  get? : ∀ id, (∃ v ∈ values, g.Reaches id v) →
    ∃ o, g.get? id = some o ∧ h.get? (f id) = some (o.rename f)

/-! ## Graphs that take over objects of another graph -/

/-- The object of a position as another graph holds it, where objects have other numbers. -/
def image (g : Graph) (f : Nat → Nat) (id : Nat) : Node :=
  ((g.get? id).getD default).rename f

/-- The graph with some objects of another graph behind its own. -/
def adopt (h g : Graph) (f : Nat → Nat) (ids : List Nat) : Graph :=
  ⟨h.nodes ++ (ids.map (g.image f)).toArray⟩

variable (h g : Graph) (f : Nat → Nat)

@[simp] lemma adopt_nil : h.adopt g f [] = h := by
  simp [adopt]

lemma adopt_append (ids ids' : List Nat) :
    h.adopt g f (ids ++ ids') = (h.adopt g f ids).adopt g f ids' := by
  simp [adopt]

@[simp] lemma size_adopt (ids : List Nat) : (h.adopt g f ids).size = h.size + ids.length := by
  simp [adopt, size]

lemma size_insert (o : Node) : (h.insert o).1.size = h.size + 1 := by
  simp [insert, size]

lemma modify_length_append {α : Type} (l r : List α) (a : α) (u : α → α) :
    (l ++ a :: r).modify l.length u = l ++ u a :: r := by
  induction l with
  | nil => rfl
  | cons b l ih => simp [ih]

/-- An object that was added empty, and gets its fields after others were added behind it, stands
where it would stand if it had been added as a whole. -/
lemma modify_adopt_insert {id : Nat} {o : Node} (ho : g.get? id = some o) (ids : List Nat) :
    (((h.insert { typeName := o.typeName }).1.adopt g f ids).modify h.size fun x =>
      { x with fields := o.fields.map (Value.renameField f) }) = h.adopt g f (id :: ids) := by
  have hid : g.image f id = o.rename f := by rw [image, ho, Option.getD_some]
  simp only [modify, adopt, insert, size, List.map_cons, hid]
  congr 1
  apply Array.ext'
  simpa [Node.rename] using modify_length_append h.nodes.toList (ids.map (g.image f))
    { typeName := o.typeName } fun x => { x with fields := o.fields.map (Value.renameField f) }

lemma get?_empty_adopt {ids : List Nat} {i id : Nat} (hi : ids[i]? = some id) {o : Node}
    (ho : g.get? id = some o) : (empty.adopt g f ids).get? i = some (o.rename f) := by
  have hid : g.image f id = o.rename f := by rw [image, ho, Option.getD_some]
  simp [adopt, empty, get?, hi, hid]

end Graph

end RemoteCall
