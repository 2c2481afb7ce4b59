/-!
# Properties

A property is a name and a value that searches can filter, order and show. An
entity may have several of one name; searches see the first.
-/

namespace EntityStore

/-- A searchable name and value. -/
structure Property where
  name : String
  value : String
deriving DecidableEq

namespace Property

/-- The first value of a name. -/
def first? (properties : List Property) (name : String) : Option String :=
  (properties.find? (·.name == name)).map Property.value

end Property

end EntityStore
