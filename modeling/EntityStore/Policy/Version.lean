import EntityStore.Text.Quoted
import EntityStore.Uuid
import EntityStore.Decimal.Digits

/-!
# Version policies

A version policy knows where an entity keeps its version token and how a new
one is put there. With optimistic locking an update is accepted only from an
entity that carries the token stored for its key, and what is stored then
carries a new one.

New tokens come from a source with a state of its own, which is passed from
call to call, so that "a token nobody has seen" is a statement about states.
-/

namespace EntityStore

/-- How entities carry version tokens, with a token source of state `τ`. -/
structure VersionPolicy (ε τ : Type) where
  /-- Whether an update has to carry the stored token. -/
  optimistic : Bool
  /-- The token that an entity carries. -/
  versionOf : ε → Option String
  /-- A new token, the entity with the token on it, and the source after the token is drawn. -/
  renew : ε → τ → (String × ε) × τ

/-- A source of tokens: the next one, and the source after it is drawn. -/
abbrev TokenSource (τ : Type) := τ → String × τ

/-- The policy that reads and writes the token with the given functions. -/
def VersionPolicy.ofAccessors {ε τ : Type} (get : ε → Option String) (set : ε → String → ε)
    (next : TokenSource τ) (optimistic : Bool) : VersionPolicy ε τ where
  optimistic
  versionOf := get
  renew e t :=
    let (token, t) := next t
    ((token, set e token), t)

def VersionPolicy.shown {ε τ : Type} (p : VersionPolicy ε τ) : String :=
  Text.shownRecord "FnVersionPolicy" [("optimistic", Text.shownBool p.optimistic)]

namespace TokenSource

/-- Numbered tokens, the first with number one; the state is the count of tokens drawn. -/
def counter : TokenSource Nat := fun n => ("g" ++ Decimal.text (n + 1), n + 1)

/-- One token again and again. -/
def constant (token : String) : TokenSource Nat := fun n => (token, n + 1)

/-- Unique identifiers; the state is the count of identifiers drawn. -/
def identifiers : TokenSource Nat := fun n => ((Uuid.version4 n).plain, n + 1)

end TokenSource

end EntityStore
