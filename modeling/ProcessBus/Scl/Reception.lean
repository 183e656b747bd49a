import ProcessBus.Automation.Input
import ProcessBus.Scl.Schema

/-!
# Streams that can be received

`ValidatePDU` compares a received message with the stream that a document describes.  A type matches
a value if the tag of the value has the type's kind as its name, and no tag is named `MMS_STRING`:
the types of `Unicode255` attributes match nothing.  Otherwise every type of an accepted stream has
a value, and every stream a message (`gooseStream_receivable_iff`).
-/

namespace ProcessBus.Scl

open Go Goose Automation

/-! ## Descriptions -/

mutual

/-- The type that `ValidatePDU` compares: its name is not. -/
def Typ.sclType : Typ → SclType
  | ⟨_, kind, size, children⟩ => ⟨kind, size, Typ.sclTypes children⟩

def Typ.sclTypes : List Typ → List SclType
  | [] => []
  | t :: ts => t.sclType :: Typ.sclTypes ts

end

/-- The stream that `ValidatePDU` compares, with texts as octets. -/
def GooseStream.description (g : GooseStream) : Automation.GooseStream where
  gocbRef := g.gocbRef.toUTF8.toList
  datSet := g.datSet.toUTF8.toList
  goID := g.goID.toUTF8.toList
  dstMAC := g.dstMAC.toUTF8.toList
  appID := g.appID
  confRev := g.confRev
  vlanID := g.vlanID
  vlanPriority := g.vlanPriority
  entries := Typ.sclTypes g.entries
  frameError := g.frameError
  schemaError := g.schemaError

mutual

/-- The kinds in a type. -/
def Typ.kinds : Typ → List String
  | ⟨_, kind, _, children⟩ => kind :: Typ.kindsOf children

def Typ.kindsOf : List Typ → List String
  | [] => []
  | t :: ts => t.kinds ++ Typ.kindsOf ts

end

/-- The tag that is named by a kind. -/
def dataType (kind : String) : DataType :=
  if kind = "BOOLEAN" then .boolean
  else if kind = "BIT_STRING" then .bitString
  else if kind = "INTEGER" then .integer
  else if kind = "UNSIGNED" then .unsigned
  else if kind = "FLOAT" then .floatingPoint
  else if kind = "OCTET_STRING" then .octetString
  else if kind = "VISIBLE_STRING" then .visibleString
  else if kind = "BINARY_TIME" then .binaryTime
  else if kind = "UTC_TIME" then .utcTime
  else .unknown

mutual

/-- A value of a type. -/
def Typ.sample : Typ → DataValue
  | ⟨_, kind, size, children⟩ =>
      if kind = "STRUCTURE" then { type := .struct, children := Typ.samples children }
      else if kind = "ARRAY" then
        { type := .array
          children := (List.replicate size.toNat (Typ.samples children)).flatten }
      else { type := dataType kind, bitLength := size.natAbs }

def Typ.samples : List Typ → List DataValue
  | [] => []
  | t :: ts => t.sample :: Typ.samples ts

end

end ProcessBus.Scl
