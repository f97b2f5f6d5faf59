import Mathlib.Init

/-!
# Go errors

An error of Go is the tree of the errors it wraps. `σ` has the values that
`errors.Is` compares, and `τ` those of a type that `errors.As` looks for and that
wraps another error.
-/

namespace Go

/-- An error: a value of its own, `errors.New`, `fmt.Errorf` with one or two `%w`, or
one of the type `τ`. -/
inductive Err (σ τ : Type)
  | value (v : σ)
  | new (text : String)
  | wrap (before : String) (e : Err σ τ)
  | wrap₂ (before : String) (e₁ : Err σ τ) (between : String) (e₂ : Err σ τ) (after : String)
  | typed (v : τ) (inner : Err σ τ)
  deriving DecidableEq, Repr

namespace Err

variable {σ τ α : Type}

/-- `errors.Join` of two. -/
def join (e e' : Err σ τ) : Err σ τ := .wrap₂ "" e "\n" e' ""

/-- `Error`; one of the type `τ` has the text of what it wraps. -/
def text (value : σ → String) : Err σ τ → String
  | .value v => value v
  | .new text => text
  | .wrap before e => before ++ e.text value
  | .wrap₂ before e₁ between e₂ after =>
    before ++ e₁.text value ++ between ++ e₂.text value ++ after
  | .typed _ inner => inner.text value

/-- `errors.Is`. -/
def is [DecidableEq σ] (v : σ) : Err σ τ → Bool
  | .value v' => v' = v
  | .new _ => false
  | .wrap _ e => e.is v
  | .wrap₂ _ e₁ _ e₂ _ => e₁.is v || e₂.is v
  | .typed _ inner => inner.is v

/-- The first value of a kind in the tree. -/
def find (f : σ → Option α) : Err σ τ → Option α
  | .value v => f v
  | .new _ => none
  | .wrap _ e => e.find f
  | .wrap₂ _ e₁ _ e₂ _ => e₁.find f <|> e₂.find f
  | .typed _ inner => inner.find f

/-- `errors.As`: the first error of the type `τ` in the tree, with what it wraps. -/
def as : Err σ τ → Option (τ × Err σ τ)
  | .value _ | .new _ => none
  | .wrap _ e => e.as
  | .wrap₂ _ e₁ _ e₂ _ => e₁.as <|> e₂.as
  | .typed v inner => some (v, inner)

end Err

end Go
