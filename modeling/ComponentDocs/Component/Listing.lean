import ComponentDocs.Component.Basic
import ComponentDocs.Path

namespace ComponentDocs.Component

/-- In the order of their names by code points; those of one name stay in the order they had. -/
def sortByName (components : List Component) : List Component :=
  components.mergeSort fun a b => decide (a.name ≤ b.name)

def relativeTo (base : RawText) (components : List Component) : List Component :=
  components.map fun component => { component with sourcePath := Path.relativeTo base component.sourcePath }

end ComponentDocs.Component
