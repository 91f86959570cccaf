import ComponentDocs.Package.Author

namespace ComponentDocs

structure Manifest where
  name : Json
  version : Json
  description : Json
  homePage : Json
  author : Author
  license : Json
  mainFile : Json
  settings : Json

namespace Manifest

def empty : Manifest := ⟨.text "", .text "", .text "", .text "", .nobody, .text "", .text "", .null⟩

/-- The home page may be spelt in two ways. The settings of this tool are null if there are none. -/
def ofEntries (entries : Bindings LooseText Json) : Manifest where
  name := (Json.key "name" entries).orEmpty
  version := (Json.key "version" entries).orEmpty
  description := (Json.key "description" entries).orEmpty
  homePage :=
    let first := Json.key "homepage" entries
    if first.isGiven then first else (Json.key "homePage" entries).orEmpty
  author := Author.ofJson (Json.key "author" entries)
  license := (Json.key "license" entries).orEmpty
  mainFile := (Json.key "main" entries).orEmpty
  settings := Json.key "redefine" entries

end Manifest

end ComponentDocs
