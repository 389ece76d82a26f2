import ApiDoc.Text.Basic

/-!
# Paths

A path in its normal form: without empty steps and steps to the same directory. Two slashes at the
start are kept, more than two are one.
-/

namespace ApiDoc.CommandLine.Path

/-- The slashes that a normal path starts with. -/
def root (t : Text) : Text :=
  match t.takeWhile (· = '/') with
  | ['/', '/'] => ['/', '/']
  | [] => []
  | _ => ['/']

/-- The steps of a path, in order. -/
def steps (t : Text) : List Text :=
  (Text.splitOn '/' t).filter fun step => !step.isEmpty && step ≠ ['.']

/-- The normal form of a path; the path without steps is the directory itself. -/
def normalize (t : Text) : Text :=
  match root t ++ Text.joinWith ['/'] (steps t) with
  | [] => ['.']
  | path => path

end ApiDoc.CommandLine.Path
