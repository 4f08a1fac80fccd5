import Latent.Kind
import Latent.Node.Requirement
import Latent.Operator

/-!
# Why a node is refused
-/

namespace Latent

/-- A reason for which no node is built. -/
inductive BuildError where
  | tooFewStatements (op : Operator) (minimum actual : Nat)
  | typeMismatch (op : Operator) (left right : KindSet)
  | invalidOperand (op : Operator) (field : String) (required : Requirement) (actual : KindSet)
  | argumentCount (op : Operator) (minimum maximum actual : Nat)
  deriving DecidableEq, Repr

namespace BuildError

/-- The operator of the node that was refused. -/
def operator : BuildError → Operator
  | tooFewStatements op .. | typeMismatch op .. | invalidOperand op .. | argumentCount op .. => op

/-- What is said of operands that no node is built from. -/
def message : BuildError → String
  | tooFewStatements op minimum actual =>
    op.name ++ " must have at least " ++ toString minimum ++ " statements, got " ++ toString actual
  | typeMismatch op left right =>
    op.name ++ " statements must have the same type, got " ++ left.text ++ " and " ++ right.text
  | invalidOperand op field required actual =>
    op.name ++ " field '" ++ field ++ "' must be " ++ required.phrase ++ ", got " ++ actual.text
  | argumentCount op minimum maximum actual =>
    op.name ++ " expects " ++ toString minimum ++ " to " ++ toString maximum ++
      " arguments, got " ++ toString actual

end BuildError

end Latent
