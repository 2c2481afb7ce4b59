/-!
# The gate

Whatever calls of several clients share stands behind a gate that lets one
visit through at a time. A visit that writes is a function from the guarded
value to an answer and the next value; one that reads is a function to an
answer alone. Since a visit is one step, calls interleave only between visits.
-/

namespace EntityStore

/-- A value that is visited one step at a time. -/
structure Gate (α : Type) where
  inner : α

namespace Gate

variable {α β : Type}

/-- A visit that looks at the value. -/
def read (g : Gate α) (visit : α → β) : β := visit g.inner

/-- A visit that may change the value. -/
def write (g : Gate α) (visit : α → β × α) : β × Gate α :=
  let (answer, inner) := visit g.inner
  (answer, ⟨inner⟩)

@[simp] theorem read_mk (a : α) (visit : α → β) : (Gate.mk a).read visit = visit a := rfl

@[simp] theorem write_mk (a : α) (visit : α → β × α) :
    (Gate.mk a).write visit = ((visit a).1, ⟨(visit a).2⟩) := rfl

end Gate

end EntityStore
