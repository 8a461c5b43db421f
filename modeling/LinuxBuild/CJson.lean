import LinuxBuild.CString

/-!
# JSON documents as cJSON presents them

A string value is what its `valuestring` shows to the C string functions. Names
are looked up without regard to case, and the first member that fits is taken.
-/
namespace CJson
open CString

inductive Json where
  | null
  | bool (b : Bool)
  | num (valueint : Int32)
  | str (valuestring : CStr)
  | arr (items : List Json)
  | obj (members : List (CStr × Json))

def Json.valuestring : Json → Option CStr
  | .str v => some v
  | _ => none

/-- The parser gives `true` the number 1. -/
def Json.valueint : Json → Int32
  | .num n => n
  | .bool true => 1
  | _ => 0

/-- `(item->type & 0xff) == cJSON_True` -/
def Json.isTrue : Json → Bool
  | .bool b => b
  | _ => false

/-- `cJSON_GetObjectItem`; the children of an array have no names. -/
def Json.getObjectItem (doc : Json) (name : String) : Option Json :=
  match doc with
  | .obj members =>
    (members.find? fun m => m.1.map tolower = (cstr name).map tolower).map Prod.snd
  | _ => none

end CJson
