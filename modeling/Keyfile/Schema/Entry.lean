import Keyfile.Schema.Rule

/-! Schemas: the tree of known container names and the tree of known keys. -/
namespace Keyfile

/-- A named entry of a schema tree. An entry without a child list is a leaf; one with an empty list
is not. -/
structure Entry (ι : Type) where
  value : String
  title : String
  info : ι
  children : Option (List (Entry ι))

instance {ι : Type} [Inhabited ι] : Inhabited (Entry ι) := ⟨⟨"", "", default, none⟩⟩

/-- What a key entry is for. -/
inductive KeyRole where
  /-- Groups further keys. -/
  | group
  /-- A key that takes a value. -/
  | value
  /-- Stands for any name that has no entry of its own. -/
  | wildcard
  deriving DecidableEq, Repr, Inhabited

/-- What the schema says of a key beyond its name. -/
structure KeyInfo where
  role : KeyRole
  rule : Option Rule
  deriving DecidableEq, Repr, Inhabited

/-- Entry data that tells whether an entry stands for any name. -/
class HasWildcards (ι : Type) where
  isWildcard : ι → Bool

/-- Containers are always matched by name. -/
instance : HasWildcards Unit := ⟨fun _ => false⟩

instance : HasWildcards KeyInfo := ⟨fun info => info.role == .wildcard⟩

def Entry.isWildcard {ι : Type} [HasWildcards ι] (e : Entry ι) : Bool := HasWildcards.isWildcard e.info

abbrev ContainerEntry := Entry Unit
abbrev KeyEntry := Entry KeyInfo

/-- Everything known of the names in a document. -/
structure Schema where
  containers : List ContainerEntry
  keys : List KeyEntry

namespace Schema

def empty : Schema := ⟨[], []⟩

instance : Inhabited Schema := ⟨empty⟩

end Schema

mutual
/-- Whether two entries agree in all parts, given how their data is compared. -/
def Entry.same {ι : Type} [BEq ι] : Entry ι → Entry ι → Bool
  | ⟨v, t, i, cs⟩, ⟨v', t', i', cs'⟩ => v == v' && t == t' && i == i' && Entry.sameLevel cs cs'
def Entry.sameLevel {ι : Type} [BEq ι] : Option (List (Entry ι)) → Option (List (Entry ι)) → Bool
  | none, none => true
  | some es, some es' => Entry.sameAll es es'
  | _, _ => false
def Entry.sameAll {ι : Type} [BEq ι] : List (Entry ι) → List (Entry ι) → Bool
  | [], [] => true
  | e :: es, e' :: es' => e.same e' && Entry.sameAll es es'
  | _, _ => false
end

instance {ι : Type} [BEq ι] : BEq (Entry ι) := ⟨Entry.same⟩

instance : BEq Schema := ⟨fun a b => a.containers == b.containers && a.keys == b.keys⟩

end Keyfile
