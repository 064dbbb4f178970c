import Forwarding.Program.Resolver

/-!
A generator that goes through the outlines from the top. It hands down the namespace path and the
names of the containers directly around, and writes the wrapper class of a container where the first
of its methods to forward stands. Nothing is numbered, nothing is looked up and no walk leads back
up, so what is generated for an item can be read off the item and its place alone.
-/

namespace Forwarding.TopDown

/-! ### What is written -/

/-- Lines of the unit, the wrapper classes and forwarders in them, and the remarks made. -/
structure Output where
  lines : List String := []
  classes : Nat := 0
  forwarders : Nat := 0
  remarks : List (DiagnosticCode × String) := []
  deriving DecidableEq, Repr

namespace Output

protected def append (a b : Output) : Output :=
  { lines := a.lines ++ b.lines
    classes := a.classes + b.classes
    forwarders := a.forwarders + b.forwarders
    remarks := a.remarks ++ b.remarks }

instance : Append Output := ⟨Output.append⟩

def join : List Output → Output
  | [] => {}
  | o :: os => o ++ join os

def text (o : Output) : String :=
  joinLines o.lines

end Output

/-- A method to forward, its types resolved. -/
structure Method where
  name : String
  parameters : List Parameter
  returnType : String
  modifiers : List String
  deriving DecidableEq, Repr

namespace Method

/-- The name of the forwarder: the name without the suffix. -/
def forwardName (m : Method) : String :=
  String.ofList (m.name.toList.take (m.name.toList.length - extensionSuffix.toList.length))

/-- The method as remarks name it. -/
def quoted (m : Method) (owner : String) : String :=
  "`" ++ owner ++ "." ++ m.name ++ "`"

def forwarder (m : Method) (owner : String) : String :=
  " ".intercalate (m.modifiers ++ [m.returnType, m.forwardName]) ++
    "(" ++ ", ".intercalate (Parameter.declareAll m.parameters) ++ ") => " ++
    owner ++ "." ++ m.name ++ "(" ++ ", ".intercalate (m.parameters.map (·.argument)) ++ ");"

end Method

/-- A container with a name, as its wrapper class shows it. -/
structure Host where
  namespacePath : String
  name : String
  qualifiedName : String
  modifiers : List String
  deriving DecidableEq, Repr

namespace Host

/-- The lines around a wrapper class with this body. -/
def lines (h : Host) (body : List String) : List String :=
  let modifiers := if h.modifiers.contains "static" then h.modifiers else h.modifiers ++ ["static"]
  let declaration := " ".intercalate modifiers ++ " class " ++ h.name ++ "Extensions"
  let indented (line : String) := if h.namespacePath.isEmpty then line else "    " ++ line
  let cls := [declaration, "\x7b"] ++ body.map ("    " ++ ·) ++ ["\x7d"]
  let inside := cls.map indented
  "" :: if h.namespacePath.isEmpty then inside
    else ["namespace " ++ h.namespacePath, "\x7b"] ++ inside ++ ["\x7d"]

/-- The wrapper class for the methods that have a forwarder name, if there is any, and the remarks
on the methods: first those without such a name, then those without a receiver. -/
def output (h : Host) (ms : List Method) : Output :=
  let kept := ms.filter fun m => !m.forwardName.isEmpty
  { lines := if kept.isEmpty then [] else h.lines (kept.map (·.forwarder h.qualifiedName))
    classes := if kept.isEmpty then 0 else 1
    forwarders := kept.length
    remarks :=
      ((ms.filter (·.forwardName.isEmpty)).map fun m => (.emptyForwardName,
        m.quoted h.qualifiedName ++
          " has no name left once the suffix is removed; no forwarder generated")) ++
      ((kept.filter (·.parameters.isEmpty)).map fun m => (.missingReceiver,
        m.quoted h.qualifiedName ++ " has no parameters; forwarded without a receiver")) }

end Host

/-! ### Where items stand -/

/-- What surrounds an item. -/
structure Place where
  namespacePath : String := ""
  /-- The item stands directly in a block namespace. -/
  inBlock : Bool := false
  /-- The names of the containers directly around, from the outside in. -/
  around : List String := []
  deriving DecidableEq, Repr

namespace Place

/-- The place of the items inside `item`. -/
def enter (s : Place) (item : OutlineItem) : Place :=
  match item.kind with
  | .fileNamespace => { namespacePath := item.name }
  | .blockNamespace =>
    { namespacePath := if s.inBlock then s.namespacePath ++ "." ++ item.name else item.name
      inBlock := true }
  | .container => { namespacePath := s.namespacePath, around := s.around ++ [item.name] }
  | _ => { namespacePath := s.namespacePath }

/-- The qualified name of a container at this place. -/
def qualify (s : Place) (name : String) : String :=
  ".".intercalate
    ((if s.namespacePath.isEmpty then [] else [s.namespacePath]) ++ s.around ++ [name])

/-- The container itself, if `item` is one and has a name. -/
def host? (s : Place) (item : OutlineItem) : Option Host :=
  if item.kind = .container && !item.name.isEmpty then
    some {
      namespacePath := s.namespacePath, name := item.name, qualifiedName := s.qualify item.name
      modifiers := item.modifiers }
  else none

end Place

/-! ### Going down -/

mutual

/-- The containers with a name in an item, by their simple and qualified names. -/
def typesIn (s : Place) : OutlineItem → List (String × String)
  | { kind, name, modifiers, span, signature, children } =>
    let item : OutlineItem := { kind, name, modifiers, span, signature, children }
    ((s.host? item).map fun h => (h.name, h.qualifiedName)).toList ++ types (s.enter item) children

def types (s : Place) : List OutlineItem → List (String × String)
  | [] => []
  | item :: items => typesIn s item ++ types s items

end

/-- The method that an item declares, if it is a static one with a marked name and a signature. -/
def method? (ctx : TypeName.Context) (item : OutlineItem) : Option Method :=
  if item.kind = .method && item.modifiers.contains "static" && hasExtensionSuffix item.name then
    item.signature.map fun s =>
      { name := item.name
        parameters := s.parameters.map fun q => { q with ty := TypeName.canonical ctx q.ty }
        returnType := TypeName.canonical ctx s.returnType
        modifiers := item.modifiers }
  else none

/-- What is to be written at the first method to forward among the items of a container. -/
def wrapper (ctx : TypeName.Context) (host : Option Host) (items : List OutlineItem) : Output :=
  match host with
  | some h => h.output (items.filterMap (method? ctx))
  | none => {}

mutual

/-- What is generated for the items inside an item. -/
def outputIn (ctx : TypeName.Context) (s : Place) : OutlineItem → Output
  | { kind, name, modifiers, span, signature, children } =>
    let item : OutlineItem := { kind, name, modifiers, span, signature, children }
    output ctx (s.enter item) (wrapper ctx (s.host? item) children) children

/-- What is generated for neighbouring items; `pending` is written at the first of them that is a
method to forward. -/
def output (ctx : TypeName.Context) (s : Place) (pending : Output) : List OutlineItem → Output
  | [] => {}
  | item :: items =>
    if (method? ctx item).isSome then
      pending ++ (outputIn ctx s item ++ output ctx s {} items)
    else outputIn ctx s item ++ output ctx s pending items

end

/-- The types that some source files declare. -/
def index (os : List Outline) : TypeIndex :=
  TypeIndex.ofList (os.flatMap fun o => types {} o.items)

/-- What is generated for some source files. -/
def generate (os : List Outline) : Output :=
  { lines := [unitHeader] } ++
    Output.join (os.map fun o => output { usings := o.usings, index := index os } {} {} o.items)

end Forwarding.TopDown
