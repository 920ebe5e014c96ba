import Mathlib.Algebra.Ring.Int.Defs
import Mathlib.Data.List.Basic

/-!
# Objects as JSON

A mapper writes an object as the JSON object of its properties and leaves out those that are null.  It
reads an object by constructing a new one, in which it sets the properties that it finds; what it does
not find stays as the constructor has set it.

## Main definitions

* `Json`, `Json.dropNulls` : JSON values, and what is written of them.
* `ValueCodec` : how the values of a type are written and read.
* `Property`, `ObjectCodec` : the same for a property, and for a class with its properties.

## Main result

* `ObjectCodec.read_write` : what comes back is what `restore` says.
-/

namespace Linker

/-- A JSON value. -/
inductive Json where
  | null
  | bool (b : Bool)
  | int (n : ℤ)
  | decimal (literal : String)
  | str (s : String)
  | arr (elems : List Json)
  | obj (members : List (String × Json))

namespace Json

mutual

/-- The value without the members that are null. -/
def dropNulls : Json → Json
  | .arr elems => .arr (dropElems elems)
  | .obj members => .obj (dropMembers members)
  | j => j

def dropElems : List Json → List Json
  | [] => []
  | j :: l => dropNulls j :: dropElems l

def dropMembers : List (String × Json) → List (String × Json)
  | [] => []
  | (_, .null) :: l => dropMembers l
  | (name, j) :: l => (name, dropNulls j) :: dropMembers l

end

/-- Whether a value is null. -/
def isNull : Json → Bool
  | .null => true
  | _ => false

theorem dropMembers_cons (name : String) {j : Json} (h : j.isNull = false) (l : List (String × Json)) :
    dropMembers ((name, j) :: l) = (name, j.dropNulls) :: dropMembers l := by
  cases j <;> first | rfl | cases h

@[simp] theorem isNull_dropNulls (j : Json) : j.dropNulls.isNull = j.isNull := by
  cases j <;> rfl

theorem dropElems_eq_map (l : List Json) : dropElems l = l.map dropNulls := by
  induction l with
  | nil => rfl
  | cons j l ih => rw [dropElems, ih, List.map_cons]

theorem dropMembers_append (l l' : List (String × Json)) :
    dropMembers (l ++ l') = dropMembers l ++ dropMembers l' := by
  induction l with
  | nil => rfl
  | cons member l ih =>
    obtain ⟨name, j⟩ := member
    cases h : j.isNull
    · rw [List.cons_append, dropMembers_cons name h, dropMembers_cons name h, ih, List.cons_append]
    · cases j <;> first | exact ih | cases h

mutual

@[simp] theorem dropNulls_dropNulls : ∀ j : Json, j.dropNulls.dropNulls = j.dropNulls
  | .arr elems => congrArg Json.arr (dropElems_dropElems elems)
  | .obj members => congrArg Json.obj (dropMembers_dropMembers members)
  | .null => rfl
  | .bool _ => rfl
  | .int _ => rfl
  | .decimal _ => rfl
  | .str _ => rfl

theorem dropElems_dropElems : ∀ l : List Json, dropElems (dropElems l) = dropElems l
  | [] => rfl
  | j :: l => congrArg₂ List.cons (dropNulls_dropNulls j) (dropElems_dropElems l)

theorem dropMembers_dropMembers :
    ∀ l : List (String × Json), dropMembers (dropMembers l) = dropMembers l
  | [] => rfl
  | (name, j) :: l => by
    have hl := dropMembers_dropMembers l
    have hj := dropNulls_dropNulls j
    cases h : j.isNull
    · rw [dropMembers_cons name h, dropMembers_cons name (by rw [isNull_dropNulls, h]), hj, hl]
    · cases j <;> first | exact hl | cases h

end

end Json

open Json

/-! ### Values -/

/-- How the values of a type are written and read; what is read back is what `restore` says. -/
structure ValueCodec (α : Type) where
  write : α → Json
  read : Json → Option α
  restore : α → α := id
  read_write : ∀ a, read (write a) = some (restore a)
  dropNulls_write : ∀ a, (write a).dropNulls = write a
  isNull_write : ∀ a, (write a).isNull = false

/-- A null is read as a null. -/
def orNullRead {α : Type} (read : Json → Option α) : Json → Option (Option α)
  | .null => some none
  | j => (read j).map some

theorem orNullRead_of_isNull {α : Type} {read : Json → Option α} {j : Json} (h : j.isNull = false) :
    orNullRead read j = (read j).map some := by
  cases j <;> first | rfl | cases h

namespace ValueCodec

variable {α : Type} (V : ValueCodec α)

/-- An array, whose elements may be null. -/
def listOfNullable : ValueCodec (List (Option α)) where
  write l := .arr (l.map fun a => (a.map V.write).getD .null)
  read
    | .arr l => l.mapM (orNullRead V.read)
    | _ => none
  restore l := l.map (Option.map V.restore)
  read_write l := by
    induction l with
    | nil => rfl
    | cons a l ih =>
      simp only [List.map_cons, List.mapM_cons, Option.bind_eq_bind, Option.pure_def] at ih ⊢
      rw [ih]
      cases a with
      | none => rfl
      | some a =>
        simp [orNullRead_of_isNull (V.isNull_write a), V.read_write]
  dropNulls_write l := by
    rw [dropNulls, dropElems_eq_map, List.map_map]
    congr 1
    refine List.map_congr_left fun a _ => ?_
    cases a with
    | none => rfl
    | some a => exact V.dropNulls_write a
  isNull_write _ := rfl

/-- An array. -/
def list : ValueCodec (List α) where
  write l := .arr (l.map V.write)
  read
    | .arr l => l.mapM V.read
    | _ => none
  restore l := l.map V.restore
  read_write l := by
    induction l with
    | nil => rfl
    | cons a l ih =>
      simp only [List.map_cons, List.mapM_cons, Option.bind_eq_bind, Option.pure_def] at ih ⊢
      rw [ih, V.read_write]
      rfl
  dropNulls_write l := by
    rw [dropNulls, dropElems_eq_map, List.map_map]
    congr 1
    exact List.map_congr_left fun a _ => V.dropNulls_write a
  isNull_write _ := rfl

end ValueCodec

/-! ### Objects -/

/-- A property of a class: how it is written, none where it is null, and how it is set to what is
read; `copy` says what an object gets of another one's property. -/
structure Property (B : Type) where
  name : String
  get : B → Option Json
  set : Json → B → Option B
  copy : B → B → B
  set_get : ∀ b j acc, get b = some j → set j acc = some (copy b acc)
  copy_of_get : ∀ b acc, get b = none → copy b acc = acc
  dropNulls_get : ∀ b j, get b = some j → j.dropNulls = j
  isNull_get : ∀ b j, get b = some j → j.isNull = false

namespace Property

variable {α B : Type} (name : String) (V : ValueCodec α)

/-- A property of a reference type: a null is not written. -/
def ofField (get : B → Option α) (set : Option α → B → B) (h : ∀ b, set (get b) b = b) :
    Property B where
  name
  get b := (get b).map V.write
  set j b := (orNullRead V.read j).map (set · b)
  copy b acc := set (((get b).map V.restore).or (get acc)) acc
  set_get b j acc hj := by
    obtain ⟨a, ha, rfl⟩ := Option.map_eq_some_iff.1 hj
    rw [orNullRead_of_isNull (V.isNull_write a), V.read_write, ha]
    rfl
  copy_of_get b acc hb := by
    rw [Option.map_eq_none_iff.1 hb]
    exact h acc
  dropNulls_get b j hj := by
    obtain ⟨a, -, rfl⟩ := Option.map_eq_some_iff.1 hj
    exact V.dropNulls_write a
  isNull_get b j hj := by
    obtain ⟨a, -, rfl⟩ := Option.map_eq_some_iff.1 hj
    exact V.isNull_write a

/-- A property of a primitive type, with what a null sets it to. -/
def ofPrimitive (get : B → α) (set : α → B → B) (zero : α) : Property B where
  name
  get b := some (V.write (get b))
  set j b := (orNullRead V.read j).map fun a => set (a.getD zero) b
  copy b acc := set (V.restore (get b)) acc
  set_get b j acc hj := by
    cases hj
    rw [orNullRead_of_isNull (V.isNull_write _), V.read_write]
    rfl
  copy_of_get b acc hb := by cases hb
  dropNulls_get b j hj := by
    cases hj
    exact V.dropNulls_write _
  isNull_get b j hj := by
    cases hj
    exact V.isNull_write _

/-- A property that holds any JSON value. -/
def ofJson (get : B → Json) (set : Json → B → B) (h : ∀ b, set (get b) b = b) : Property B where
  name
  get b := if (get b).isNull then none else some (get b).dropNulls
  set j b := some (set j b)
  copy b acc := set (if (get b).isNull then get acc else (get b).dropNulls) acc
  set_get b j acc hj := by
    split at hj
    · cases hj
    · next hnull =>
      cases hj
      rw [if_neg hnull]
  copy_of_get b acc hb := by
    split at hb
    · next hnull => rw [if_pos hnull, h]
    · cases hb
  dropNulls_get b j hj := by
    split at hj
    · cases hj
    · cases hj
      exact dropNulls_dropNulls _
  isNull_get b j hj := by
    split at hj
    · cases hj
    · next hnull =>
      cases hj
      simpa using hnull

/-- The members that a property is written as. -/
def members {B : Type} (p : Property B) (b : B) : List (String × Json) :=
  ((p.get b).map fun j => (p.name, j)).toList

end Property

/-- A class with what its constructor without arguments makes, and its properties. -/
structure ObjectCodec (B : Type) where
  new : B
  properties : List (Property B)
  nodup : (properties.map Property.name).Nodup

namespace ObjectCodec

variable {B : Type} (O : ObjectCodec B)

def members (b : B) : List (String × Json) := O.properties.flatMap (·.members b)

def write (b : B) : Json := .obj (O.members b)

/-- Set the property with the name; an unknown one is an error. -/
def set (name : String) (j : Json) (b : B) : Option B :=
  (O.properties.find? (·.name == name)).bind fun p => p.set j b

def read : Json → Option B
  | .obj members => members.foldlM (fun b (name, j) => O.set name j b) O.new
  | _ => none

/-- What comes back of an object. -/
def restore (b : B) : B := O.properties.foldl (fun acc p => p.copy b acc) O.new

omit O in
theorem find?_name {ps : List (Property B)} (hnodup : (ps.map Property.name).Nodup) {p : Property B}
    (hp : p ∈ ps) : ps.find? (·.name == p.name) = some p := by
  induction ps with
  | nil => cases hp
  | cons q ps ih =>
    rw [List.map_cons, List.nodup_cons] at hnodup
    rcases List.mem_cons.1 hp with rfl | hp
    · rw [List.find?_cons, beq_self_eq_true]
    · have hne : q.name ≠ p.name := fun h => hnodup.1 (h ▸ List.mem_map_of_mem hp)
      rw [List.find?_cons, beq_false_of_ne hne]
      exact ih hnodup.2 hp

theorem set_of_mem {p : Property B} (hp : p ∈ O.properties) (j : Json) (b : B) :
    O.set p.name j b = p.set j b := by
  rw [set, find?_name O.nodup hp]
  rfl

theorem foldlM_members (b : B) {ps : List (Property B)} (hps : ∀ p ∈ ps, p ∈ O.properties) (acc : B) :
    (ps.flatMap (·.members b)).foldlM (fun b (name, j) => O.set name j b) acc =
      some (ps.foldl (fun acc p => p.copy b acc) acc) := by
  induction ps generalizing acc with
  | nil => rfl
  | cons p ps ih =>
    have ih := fun acc => ih (fun q hq => hps q (List.mem_cons_of_mem p hq)) acc
    rw [List.flatMap_cons, List.foldlM_append, List.foldl_cons, ← ih, Property.members]
    cases hget : p.get b with
    | none =>
      rw [p.copy_of_get b acc hget]
      rfl
    | some j =>
      have hset : O.set p.name j acc = some (p.copy b acc) := by
        rw [O.set_of_mem (hps p List.mem_cons_self), p.set_get b j acc hget]
      simp [hset]

/-- **What comes back**: an object is read from what it is written as, with its properties; where one
of them is null, the new object keeps its own. -/
theorem read_write (b : B) : O.read (O.write b) = some (O.restore b) :=
  O.foldlM_members b (fun _ hp => hp) O.new

theorem dropNulls_write (b : B) : (O.write b).dropNulls = O.write b := by
  rw [write, dropNulls, members]
  congr 1
  induction O.properties with
  | nil => rfl
  | cons p ps ih =>
    rw [List.flatMap_cons, dropMembers_append, ih, Property.members]
    congr 1
    cases hget : p.get b with
    | none => rfl
    | some j =>
      have hmember := dropMembers_cons p.name (p.isNull_get b j hget) []
      rw [p.dropNulls_get b j hget] at hmember
      exact hmember

/-- The objects of a class as values. -/
def value : ValueCodec B where
  write := O.write
  read := O.read
  restore := O.restore
  read_write := O.read_write
  dropNulls_write := O.dropNulls_write
  isNull_write _ := rfl

end ObjectCodec

end Linker
