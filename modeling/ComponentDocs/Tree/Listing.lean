import ComponentDocs.Json.Basic
import ComponentDocs.Syntax.Role

/-! Concrete trees as JSON documents: a node is the list of its kind, its field, its two offsets, and perhaps the list
of its children. -/

namespace ComponentDocs

def Kind.spelt (text : String) : Kind :=
  match text.toList with
  | ':' :: rest => .keyword (String.ofList rest)
  | _ => .node text

namespace Tree

mutual

def ofJson? : Json → Option Tree
  | .array [.text (.proper kind), .text (.proper field), .int start, .int stop] =>
    some ⟨.spelt kind, some field |>.filter (· != ""), start.toNat, stop.toNat, []⟩
  | .array [.text (.proper kind), .text (.proper field), .int start, .int stop, .array children] => do
    return ⟨.spelt kind, some field |>.filter (· != ""), start.toNat, stop.toNat, ← listOfJson? children⟩
  | _ => none

def listOfJson? : List Json → Option (List Tree)
  | [] => some []
  | first :: rest => do return (← ofJson? first) :: (← listOfJson? rest)

end

end Tree

end ComponentDocs
