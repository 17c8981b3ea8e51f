import GraphSearch.Json.Fault
import GraphSearch.Json.Shape
/-!
# Rejections

Why a request is refused.  Every rejection but the ones of a whole request names the
key it arose at, and all of them carry the value that gave the cause, so that a caller
can show both.  The wording of all causes is in `Rejection.message`.
-/

namespace GraphSearch

/-- Why an entry of an aggregation is refused. -/
inductive AggregateFault where
  /-- The aggregation as a whole is not an object. -/
  | notObject
  /-- The entry does not have the fields of an aggregate. -/
  | shape (fault : Json.ShapeFault)
  | unknownFunction (name : String)
  /-- The function is applied to a property, and none is given. -/
  | fieldRequired (function : String)
  /-- A nested aggregation is not an object. -/
  | nestedNotObject (found : Json)
  /-- The end of the window is not a 64-bit number. -/
  | windowOverflow (skip limit : Nat)
  deriving DecidableEq, Repr

/-- The wording of a fault of an aggregation. -/
def AggregateFault.message : AggregateFault → String
  | .notObject => "aggregate must be an object"
  | .shape fault => fault.message
  | .unknownFunction name => "unknown aggregate function `" ++ name ++ "`"
  | .fieldRequired function => "`" ++ function ++ "` requires a field"
  | .nestedNotObject found => "nested aggregate must be an object, got " ++ found.compact
  | .windowOverflow skip limit =>
    "collect window skip " ++ toString skip ++ " + limit " ++ toString limit ++ " overflows"

/-- Why a request is refused before it is looked into. -/
inductive RequestFault where
  /-- The text is not a JSON value. -/
  | unreadable (error : Json.SyntaxError)
  /-- The value does not have the fields of a request. -/
  | shape (fault : Json.ShapeFault)
  deriving DecidableEq, Repr

/-- The wording of a fault of a request. -/
def RequestFault.message : RequestFault → String
  | .unreadable error => error.message
  | .shape fault => fault.message

/-- Why a request, or a part of one, is refused. -/
inductive Rejection where
  | unknownOperator (key operator : String) (value : Json)
  | unknownComponent (key component : String) (value : Json)
  | missingYear (key : String) (value : Json)
  | arrayForScalar (key : String) (value : Json)
  | invalidExists (key : String) (value : Json)
  | invalidType (key : String) (value : Json)
  | invalidOperand (key operator : String) (value : Json)
  | invalidAggregate (key : String) (fault : AggregateFault) (value : Json)
  | unknownAlias (key : String) (declared : String)
  | invalidRequest (fault : RequestFault) (value : Json)
  deriving DecidableEq, Repr

namespace Rejection

/-- The key the rejection arose at; empty for a whole request. -/
def key : Rejection → String
  | .unknownOperator key _ _ | .unknownComponent key _ _ | .missingYear key _
  | .arrayForScalar key _ | .invalidExists key _ | .invalidType key _
  | .invalidOperand key _ _ | .invalidAggregate key _ _ | .unknownAlias key _ => key
  | .invalidRequest _ _ => ""

/-- The value that gave the cause. -/
def value : Rejection → Json
  | .unknownOperator _ _ value | .unknownComponent _ _ value | .missingYear _ value
  | .arrayForScalar _ value | .invalidExists _ value | .invalidType _ value
  | .invalidOperand _ _ value | .invalidAggregate _ _ value | .invalidRequest _ value => value
  | .unknownAlias _ declared => .string declared

/-- The wording of a rejection. -/
def message (rejection : Rejection) : String :=
  let shown := rejection.value.compact
  match rejection with
  | .unknownOperator key operator _ =>
    "Unknown operator `" ++ operator ++ "` for `" ++ key ++ "`: " ++ shown
  | .unknownComponent key component _ =>
    "Unknown datetime component `" ++ component ++ "` for `" ++ key ++ "`: " ++ shown
  | .missingYear key _ =>
    "Datetime components for `" ++ key ++ "` require `$year`: " ++ shown
  | .arrayForScalar key _ => "Expected a scalar for `" ++ key ++ "`, got an array: " ++ shown
  | .invalidExists key _ =>
    "`$exists` for `" ++ key ++ "` must be a boolean, got " ++ shown
  | .invalidType key _ =>
    "`$type` for `" ++ key
      ++ "` must be one of string, number, boolean, null, datetime, vector; got " ++ shown
  | .invalidOperand key operator _ =>
    "Invalid operand for `" ++ operator ++ "` on `" ++ key ++ "`: " ++ shown
  | .invalidAggregate key fault _ => "Invalid aggregate `" ++ key ++ "`: " ++ fault.message
  | .unknownAlias key _ => "Aggregate `" ++ key ++ "` references unknown alias " ++ shown
  | .invalidRequest fault _ => "Invalid search request: " ++ fault.message

end Rejection
end GraphSearch
