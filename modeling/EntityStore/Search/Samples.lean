import EntityStore.Search.Scan

/-!
# Sample algorithms

Algorithms of known conduct. They fail or panic in each way there is, or hand
out a snapshot in some plain arrangement without a look at filters, order and
page. Whoever wants to know how a store takes an algorithm gives it one of
these.
-/

namespace EntityStore

/-- What a sample algorithm panics with. -/
inductive PanicForm where
  /-- A text that is always the same. -/
  | fixed
  /-- A text made for the request: a message and the number of selected properties. -/
  | composed
  /-- A value that is no text. -/
  | other

/-- What a sample algorithm does. -/
inductive Sample where
  /-- The property scan. -/
  | scan
  /-- Ends with an error. -/
  | failing (e : SearchError)
  /-- Panics at once. -/
  | panicking (form : PanicForm) (message : String)
  /-- Panics after the first hit, before the second. -/
  | late
  /-- Everything in reverse key order. -/
  | reverse
  /-- Everything, each twice. -/
  | twice
  /-- Nothing. -/
  | nothing
  /-- The first of the entities that measure most. -/
  | greatest

namespace Sample

variable {κ ε σ : Type}

/-- The panic of a form. -/
def panicOf (form : PanicForm) (message : String) (request : SearchRequest) : Panic :=
  match form with
  | .fixed => .text "boom"
  | .composed => .text (message ++ " " ++ Decimal.text request.select.length)
  | .other => .other

/-- The hits of the algorithm that panics after the first of several. -/
def lateHits : List (Container κ) → Hits κ
  | c :: _ :: _ => { items := [c], panic := some (.text "late 1") }
  | items => { items }

/-- The first of the containers whose entities measure most, with the measure. Every entity is
decoded. -/
def greatestOf (measure : ε → Int) (x : Context ε σ) (best : Option (Container κ × Int)) :
    List (Container κ) → Memory ε σ →
      Except StoreError (Option (Container κ × Int)) × Memory ε σ
  | [], m => (.ok best, m)
  | c :: rest, m =>
    match c.entity x m with
    | (.error e, m) => (.error e, m)
    | (.ok entity, m) =>
      let n := measure entity
      let best := if best.any (n ≤ ·.2) then best else some (c, n)
      greatestOf measure x best rest m

/-- A sample algorithm under an id; entities are compared by the measure. -/
def algorithm (measure : ε → Int) (id : String) : Sample → Algorithm κ ε σ
  | .scan => Scan.algorithm id
  | .failing e => .ofFunction id fun _ _ => .error (.error e)
  | .panicking form message =>
    .ofFunction id fun _ request => .error (.panic (panicOf form message request))
  | .late => .ofFunction id fun snapshot _ => .ok (lateHits snapshot.containers)
  | .reverse => .ofFunction id fun snapshot _ => .ok { items := snapshot.containers.reverse }
  | .twice =>
    .ofFunction id fun snapshot _ => .ok { items := snapshot.containers.flatMap fun c => [c, c] }
  | .nothing => .ofFunction id fun _ _ => .ok { items := [] }
  | .greatest => {
      id
      search := fun x snapshot _ m =>
        match greatestOf measure x none snapshot.containers m with
        | (.error e, m) => (.error (.error (.entity e)), m)
        | (.ok best, m) => (.ok { items := (best.map Prod.fst).toList }, m) }

end Sample

end EntityStore
