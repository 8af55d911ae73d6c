import WebResource.Codec.Basic

namespace WebResource.Sample

/-!
# Sample codecs
-/

namespace Codecs

def failing : Codec :=
  ⟨fun _ => .error (.encode "cannot marshal"), fun _ => .error (.decode "cannot unmarshal"), none⟩

/-- Writes every document as the same text and reads every input as that text. -/
def constant (text : String) : Codec :=
  ⟨fun _ => .ok (Utf8.encode text), fun _ => .ok (.str text), none⟩

def named : String → Codec
  | "json" => .json
  | "jsonstream" => .jsonLines
  | "form" => .form
  | "failing" => failing
  | text => constant text

end Codecs

end WebResource.Sample
