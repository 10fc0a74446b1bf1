import Mathlib.Logic.Function.Basic
import Mathlib.Data.List.Basic

/-! # Keyed archives

A keyed archive stores each object as a map from keys to values in which the
last write of a key wins. Nested objects and arrays are stored recursively, and
an object names its class through a table of the archiving process; the reading
process resolves the name through a table of its own. Both tables are global to
their process and filled by whoever archives or reads first.
-/

namespace KeyedArchive

/-- The content of an archive. An object's fields are listed newest first; a
dictionary or a set is a collection of the objects that it holds, in the order in
which they are read (of a dictionary first the keys). -/
inductive Archive (Leaf : Type)
  | null
  | leaf (value : Leaf)
  | array (elements : List (Archive Leaf))
  | collection (elements : List (Archive Leaf))
  | object (className : String) (fields : List (String × Archive Leaf))

/-- The class names of one process: those that the language runtime gives its
classes, and the two tables that override them. -/
structure ClassTables (Class : Type) where
  runtimeName : Class → String
  runtimeClass : String → Option Class
  names : Class → Option String
  classes : String → Option Class

namespace ClassTables

variable {Class : Type} (tables : ClassTables Class)

/-- The class name written into an archive. -/
def archivedName (cls : Class) : String := (tables.names cls).getD (tables.runtimeName cls)

/-- The class that a name in an archive stands for. -/
def resolve (name : String) : Option Class :=
  (tables.classes name).or (tables.runtimeClass name)

/-- Name a class in the archives written from now on. -/
def setClassName [DecidableEq Class] (name : String) (cls : Class) : ClassTables Class :=
  { tables with names := Function.update tables.names cls (some name) }

/-- Let a name in the archives read from now on stand for a class. -/
def setClass (cls : Class) (name : String) : ClassTables Class :=
  { tables with classes := Function.update tables.classes name (some cls) }

@[simp] theorem archivedName_setClassName [DecidableEq Class] (name : String) (cls : Class) :
    (tables.setClassName name cls).archivedName cls = name := by
  simp [archivedName, setClassName]

theorem archivedName_setClassName_of_ne [DecidableEq Class] {cls other : Class} (name : String)
    (hne : other ≠ cls) :
    (tables.setClassName name cls).archivedName other = tables.archivedName other := by
  simp [archivedName, setClassName, Function.update_of_ne hne]

@[simp] theorem classes_setClass (cls : Class) (name : String) :
    (tables.setClass cls name).classes name = some cls := by
  simp [setClass]

theorem classes_setClass_of_ne (cls : Class) {name other : String} (hne : other ≠ name) :
    (tables.setClass cls name).classes other = tables.classes other := by
  simp [setClass, Function.update_of_ne hne]

@[simp] theorem resolve_setClass (cls : Class) (name : String) :
    (tables.setClass cls name).resolve name = some cls := by
  simp [resolve, setClass]

theorem resolve_setClass_of_ne (cls : Class) {name other : String} (hne : other ≠ name) :
    (tables.setClass cls name).resolve other = tables.resolve other := by
  simp [resolve, setClass, Function.update_of_ne hne]

end ClassTables

/-! ## Writing -/

section Writing

variable {Leaf Class Failure Value : Type}

/-- A value that can write itself: it may use and change the class names. -/
abbrev Writer (Leaf Class Failure : Type) :=
  ClassTables Class → Except Failure (ClassTables Class × Archive Leaf)

/-- The archiver while an object encodes itself. -/
structure Coder (Leaf Class : Type) where
  tables : ClassTables Class
  fields : List (String × Archive Leaf)

def Coder.encode (coder : Coder Leaf Class) (write : Writer Leaf Class Failure) (key : String) :
    Except Failure (Coder Leaf Class) := do
  let (tables, archive) ← write coder.tables
  return { tables := tables, fields := (key, archive) :: coder.fields }

def writeLeaf (value : Leaf) : Writer Leaf Class Failure := fun tables =>
  .ok (tables, .leaf value)

/-- An absent value is stored as such. -/
def writeOptional (value : Option Leaf) : Writer Leaf Class Failure := fun tables =>
  .ok (tables, value.elim .null .leaf)

/-- An object encodes its fields and is then given the name of its class. -/
def writeObject (cls : Class)
    (encodeWith : Coder Leaf Class → Except Failure (Coder Leaf Class)) :
    Writer Leaf Class Failure := fun tables => do
  let coder ← encodeWith { tables := tables, fields := [] }
  return (coder.tables, .object (coder.tables.archivedName cls) coder.fields)

def writeElements (write : Value → Writer Leaf Class Failure) :
    List Value → ClassTables Class → Except Failure (ClassTables Class × List (Archive Leaf))
  | [], tables => .ok (tables, [])
  | value :: rest, tables => do
      let (tables, archive) ← write value tables
      let (tables, archives) ← writeElements write rest tables
      return (tables, archive :: archives)

def writeArray (write : Value → Writer Leaf Class Failure) (values : List Value) :
    Writer Leaf Class Failure := fun tables => do
  let (tables, archives) ← writeElements write values tables
  return (tables, .array archives)

/-- Elements that leave the class names alone are written one by one. -/
theorem writeElements_eq (write : Value → Writer Leaf Class Failure)
    (archive : Value → Archive Leaf) (tables : ClassTables Class) (values : List Value)
    (hwrite : ∀ value ∈ values, write value tables = .ok (tables, archive value)) :
    writeElements write values tables = .ok (tables, values.map archive) := by
  induction values with
  | nil => rfl
  | cons value rest ih =>
      have hrest := ih fun other hother => hwrite other (List.mem_cons_of_mem _ hother)
      rw [writeElements, hwrite value List.mem_cons_self]
      simp only [bind, Except.bind, hrest, pure, Except.pure, List.map_cons]

theorem writeArray_eq (write : Value → Writer Leaf Class Failure)
    (archive : Value → Archive Leaf) (tables : ClassTables Class) (values : List Value)
    (hwrite : ∀ value ∈ values, write value tables = .ok (tables, archive value)) :
    writeArray write values tables = .ok (tables, .array (values.map archive)) := by
  rw [writeArray, writeElements_eq write archive tables values hwrite]
  rfl

end Writing

/-! ## Reading -/

section Reading

variable {Leaf Class Object Failure : Type}

/-- What an object can ask the unarchiver for while it is initialised. -/
structure KeyedReader (Leaf Object Failure : Type) where
  /-- The object under a key, read in full; nil when the key is absent. -/
  decodeObject : String → Except Failure (Option Object)
  /-- The stored value under a key, as it is. -/
  contents : String → Option (Archive Leaf)

/-- How a process turns stored values into objects. -/
structure Unarchiver (Leaf Class Object Failure : Type) where
  ofLeaf : Leaf → Except Failure Object
  ofArray : List Object → Object
  ofCollection : List Object → Object
  initCoder : Class → KeyedReader Leaf Object Failure → Except Failure Object
  unknownClass : String → Failure
  nullElement : Failure

variable (reader : Unarchiver Leaf Class Object Failure) (tables : ClassTables Class)

mutual

/-- Read one stored value. -/
def unarchive : Archive Leaf → Except Failure (Option Object)
  | .null => .ok none
  | .leaf value => (reader.ofLeaf value).map some
  | .array elements => (unarchiveElements elements).map fun objects =>
      some (reader.ofArray objects)
  | .collection elements => (unarchiveElements elements).map fun objects =>
      some (reader.ofCollection objects)
  | .object className fields =>
      match tables.resolve className with
      | none => .error (reader.unknownClass className)
      | some cls => (reader.initCoder cls
          { decodeObject := fun key => ((unarchiveFields fields).lookup key).getD (.ok none)
            contents := fun key => fields.lookup key }).map some

def unarchiveElements : List (Archive Leaf) → Except Failure (List Object)
  | [] => .ok []
  | element :: rest =>
      match unarchive element with
      | .error failure => .error failure
      | .ok none => .error reader.nullElement
      | .ok (some object) => (unarchiveElements rest).map (object :: ·)

def unarchiveFields : List (String × Archive Leaf) →
    List (String × Except Failure (Option Object))
  | [] => []
  | (key, archive) :: rest => (key, unarchive archive) :: unarchiveFields rest

end

/-- Reading a key reads the value that was last written under it. -/
theorem unarchiveFields_lookup (fields : List (String × Archive Leaf)) (key : String) :
    (unarchiveFields reader tables fields).lookup key =
      (fields.lookup key).map (unarchive reader tables) := by
  induction fields with
  | nil => simp [unarchiveFields]
  | cons field rest ih =>
      obtain ⟨name, archive⟩ := field
      simp only [unarchiveFields, List.lookup_cons]
      cases key == name <;> simp [ih]

/-- What an object sees of its own fields. -/
def fieldReader (fields : List (String × Archive Leaf)) : KeyedReader Leaf Object Failure where
  decodeObject key := ((fields.lookup key).map (unarchive reader tables)).getD (.ok none)
  contents key := fields.lookup key

theorem unarchive_object {className : String} {cls : Class}
    (fields : List (String × Archive Leaf)) (hclass : tables.resolve className = some cls) :
    unarchive reader tables (.object className fields) =
      (reader.initCoder cls (fieldReader reader tables fields)).map some := by
  simp only [unarchive, hclass, unarchiveFields_lookup]
  rfl

theorem unarchiveElements_map {Value : Type} (archive : Value → Archive Leaf)
    (object : Value → Object) (values : List Value)
    (hread : ∀ value ∈ values,
      unarchive reader tables (archive value) = .ok (some (object value))) :
    unarchiveElements reader tables (values.map archive) = .ok (values.map object) := by
  induction values with
  | nil => rfl
  | cons value rest ih =>
      have hrest := ih fun other hother => hread other (List.mem_cons_of_mem _ hother)
      simp only [List.map_cons, unarchiveElements, hread value List.mem_cons_self, hrest]
      rfl

/-- An array of values that can each be read back is read back in order. -/
theorem unarchive_array_map {Value : Type} (archive : Value → Archive Leaf)
    (object : Value → Object) (values : List Value)
    (hread : ∀ value ∈ values,
      unarchive reader tables (archive value) = .ok (some (object value))) :
    unarchive reader tables (.array (values.map archive)) =
      .ok (some (reader.ofArray (values.map object))) := by
  rw [unarchive, unarchiveElements_map reader tables archive object values hread]
  rfl

end Reading

end KeyedArchive
