import Minimization.Tensor.Basic
import Minimization.Text.Quoted

namespace Minimization

/-!
# What a step reports

* `Note` — an annotation that a step attaches for observers; `Note.text` writes it into a line.
* `ReportOn`, `Report` — the sparse result of a step: those of point, cost, gradient and Hessian
  that it computed, and its notes.  What is absent leaves the progress of the run as it was.
-/

/-- The value of an annotation. -/
inductive Note (α : Type) where
  | number (x : α)
  | whole (n : Int)
  | words (s : String)
  | truth (b : Bool)
  | nothing
  | list (items : List (Note α))
  | table (fields : List (String × Note α))
deriving Repr, Inhabited

namespace Note

variable {α : Type} [Scalar α]

mutual

/-- An annotation inside another one: words stand in quotes. -/
def innerText : Note α → String
  | .number x => Scalar.shortest x
  | .whole n => toString n
  | .words s => quoted s
  | .truth b => if b then "True" else "False"
  | .nothing => "None"
  | .list items => "[" ++ ", ".intercalate (itemTexts items) ++ "]"
  | .table fields => "\x7b" ++ ", ".intercalate (fieldTexts fields) ++ "\x7d"

/-- The items of a list. -/
def itemTexts : List (Note α) → List String
  | [] => []
  | v :: vs => innerText v :: itemTexts vs

/-- The fields of a table. -/
def fieldTexts : List (String × Note α) → List String
  | [] => []
  | (key, v) :: rest => (quoted key ++ ": " ++ innerText v) :: fieldTexts rest

end

/-- An annotation as it is written in a line of text. -/
def text : Note α → String
  | .words s => s
  | v => v.innerText

end Note

/-- Annotations under their keys, in the order in which the keys came up. -/
abbrev Notes (α : Type) := List (String × Note α)

/-- Sets the annotation of a key. -/
def Notes.put {α : Type} (notes : Notes α) (key : String) (value : Note α) : Notes α :=
  if notes.any (·.1 == key) then notes.map fun (k, v) => (k, if k == key then value else v)
  else notes ++ [(key, value)]

/-- Sets the annotations of several keys. -/
def Notes.putAll {α : Type} (notes : Notes α) (more : Notes α) : Notes α :=
  more.foldl (fun acc (k, v) => acc.put k v) notes

/-- Annotations as they follow other text in a line. -/
def Notes.text {α : Type} [Scalar α] (notes : Notes α) : String :=
  notes.foldl (fun acc (k, v) => acc ++ ", " ++ k ++ ": " ++ v.text) ""

/-- What a step computed; `ρ` is the type of the points. -/
structure ReportOn (ρ α : Type) where
  param : Option ρ := none
  cost : Option α := none
  gradient : Option (Tensor α) := none
  hessian : Option (Tensor α) := none
  notes : Notes α := []
deriving Repr

/-- What a step on tensors computed. -/
abbrev Report (α : Type) := ReportOn (Tensor α) α

/-- The names of the parts that are present. -/
def ReportOn.text {ρ α : Type} (r : ReportOn ρ α) : String :=
  let named (name : String) (present : Bool) : List String := if present then [name] else []
  "IterData(" ++ ", ".intercalate (named "param" r.param.isSome ++ named "cost" r.cost.isSome ++
    named "grad" r.gradient.isSome ++ named "hessian" r.hessian.isSome) ++ ")"

end Minimization
