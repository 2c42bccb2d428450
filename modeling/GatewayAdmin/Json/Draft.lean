import GatewayAdmin.Json.Token
/-! Values as they stand in a text, members in their order and repeated names kept. A text with a
fault still has a draft: the fault stands in it where a reader would meet it, so that whoever reads
a draft from left to right finds the first fault of the text. -/
namespace GatewayAdmin.Json

inductive Draft where
  | null
  | bool (b : Bool)
  | number (n : NumberText)
  | string (s : StringText)
  | array (items : List Draft) (fault : Option Fault)
  | object (members : List (StringText × Draft)) (fault : Option Fault)
  | broken (f : Fault)

/-- A container part way through, its parts newest first. -/
inductive Frame where
  | array (items : List Draft)
  | object (members : List (StringText × Draft)) (key : StringText)

/-- What may come next, and the containers that are open around it. -/
inductive Cursor where
  | value (frames : List Frame)
  | firstItem (frames : List Frame)
  | nextItem (items : List Draft) (frames : List Frame)
  | firstKey (frames : List Frame)
  | key (members : List (StringText × Draft)) (frames : List Frame)
  | colon (members : List (StringText × Draft)) (key : StringText) (frames : List Frame)
  | nextMember (members : List (StringText × Draft)) (frames : List Frame)
  | done (draft : Draft) (clean : Bool)

namespace Cursor

/-- Gives a finished value to the container around it. -/
def accept (d : Draft) : List Frame → Cursor
  | [] => .done d true
  | .array items :: frames => .nextItem (d :: items) frames
  | .object members k :: frames => .nextMember ((k, d) :: members) frames

/-- The draft when reading ends within these containers. -/
def unwind (f : Fault) (d : Draft) : List Frame → Draft
  | [] => d
  | .array items :: frames => unwind f (.array (d :: items).reverse (some f)) frames
  | .object members k :: frames => unwind f (.object ((k, d) :: members).reverse (some f)) frames

/-- The draft when nothing more can be read. -/
def close (f : Fault) : Cursor → Draft
  | value frames => unwind f (.broken f) frames
  | firstItem frames => unwind f (.array [] (some f)) frames
  | nextItem items frames => unwind f (.array items.reverse (some f)) frames
  | firstKey frames => unwind f (.object [] (some f)) frames
  | key members frames => unwind f (.object members.reverse (some f)) frames
  | colon members k frames =>
    unwind f (.object ((k, .broken f) :: members).reverse (some f)) frames
  | nextMember members frames => unwind f (.object members.reverse (some f)) frames
  | done draft _ => draft

/-- A token that may not stand here. -/
def reject (c : Cursor) : Cursor := .done (c.close .malformed) false

/-- A token where a value is wanted. -/
def stepValue (c : Cursor) (frames : List Frame) : Token → Cursor
  | .null => accept .null frames
  | .bool b => accept (.bool b) frames
  | .number n => accept (.number n) frames
  | .string s => accept (.string s) frames
  | .openArray => .firstItem frames
  | .openObject => .firstKey frames
  | .broken f => accept (.broken f) frames
  | _ => c.reject

def step (c : Cursor) (t : Token) : Cursor :=
  match c, t with
  | value frames, t => stepValue c frames t
  | firstItem frames, .closeArray => accept (.array [] none) frames
  | firstItem frames, t => stepValue c (.array [] :: frames) t
  | nextItem items frames, .comma => .value (.array items :: frames)
  | nextItem items frames, .closeArray => accept (.array items.reverse none) frames
  | firstKey frames, .closeObject => accept (.object [] none) frames
  | firstKey frames, .string k => .colon [] k frames
  | key members frames, .string k => .colon members k frames
  | colon members k frames, .colon => .value (.object members k :: frames)
  | nextMember members frames, .comma => .key members frames
  | nextMember members frames, .closeObject => accept (.object members.reverse none) frames
  | done draft _, _ => .done draft false
  | c, _ => c.reject

def isClean : Cursor → Bool
  | done _ clean => clean
  | _ => true

end Cursor

/-- The value of a text, and whether nothing but white space follows it. -/
structure Document where
  draft : Draft
  clean : Bool

def document (text : List UInt8) : Document :=
  let ts := tokens text
  let c := ts.list.foldl Cursor.step (.value [])
  ⟨c.close ts.fault, c.isClean⟩

end GatewayAdmin.Json
