import CallTime.Source.Signature

/-!
Binding the arguments of a call to the parameters of the function it resolves to.
-/

namespace CallTime.Source

/-- A positional argument; a starred one stands for any number of them. -/
structure Passed (ε : Type) where
  value : ε
  starred : Bool

inductive Slot (ε : Type) where
  | value (e : ε)
  | default (name : String)
  /-- Something that is not known before the call. -/
  | unknown (name : String)

structure Binding (ε : Type) where
  /-- One for each parameter, in the order of the parameters. -/
  slots : List (Slot ε)
  /-- The argument values that no parameter gets alone. -/
  spare : List ε

namespace Binding

variable {ε : Type}

/-- Takes a parameter from the named arguments, else its default; `unsure` when an unpacked argument
may supply it. -/
def slotOf (s : Signature) (unsure : Bool) (name : String) : StateM (OrderedMap String ε) (Slot ε) := do
  match (← get).get? name with
  | some e => do
    modify (·.erase name)
    return .value e
  | none =>
    return if !unsure && s.defaults.contains name then .default name else .unknown name

def positionalSlots (s : Signature) (unsure : Bool) :
    List String → List ε → StateM (OrderedMap String ε) (List (Slot ε))
  | [], _ => return []
  | _ :: names, e :: es => do return .value e :: (← positionalSlots s unsure names es)
  | name :: names, [] => do
    let slot ← slotOf s unsure name
    return slot :: (← positionalSlots s unsure names [])

def make (s : Signature) (arguments : List (Passed ε)) (keywords : List (Keyword ε)) : Binding ε :=
  let leading := (arguments.takeWhile (!·.starred)).map (·.value)
  let trailing := (arguments.dropWhile (!·.starred)).map (·.value)
  let named := OrderedMap.ofList (keywords.filterMap fun k => k.name.map (·, k.value))
  let unpacked := keywords.filterMap fun k => if k.name.isNone then some k.value else none
  let bind : StateM (OrderedMap String ε) (List (Slot ε)) := do
    let unsure := !trailing.isEmpty || !unpacked.isEmpty
    let positional ← positionalSlots s unsure s.positional leading
    let keywordOnly ← s.keywordOnly.mapM (slotOf s (!unpacked.isEmpty))
    return positional ++ s.rest.toList.map .unknown ++ keywordOnly ++ s.keywordRest.toList.map .unknown
  let (slots, left) := bind.run named
  { slots, spare := leading.drop s.positional.length ++ trailing ++ left.values ++ unpacked }

end Binding

end CallTime.Source
