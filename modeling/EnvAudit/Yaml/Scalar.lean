import EnvAudit.Data
import EnvAudit.Number.Literal
import EnvAudit.Yaml.Base64
import EnvAudit.Yaml.Tag

/-!
# Values of scalars

What a scalar with a tag stands for. A number may have underscores between its digits and places
that count by sixties; a whole number that starts with a zero is octal.
-/
namespace EnvAudit.Yaml

/-- A whole number in a base. -/
def intInBase (base : Nat) (t : Text) : Except ValueFault Int :=
  match numeralIn? base t with
  | none => .error (.notInt t.quoted base)
  | some (negative, digits) =>
    if base = 10 ∧ maxDecimalDigits < digits.length then .error (.tooManyDigits digits.length)
    else .ok (signed negative (ofDigits base digits))

/-- A whole number whose places count by sixties. -/
def intBySixties (t : Text) : Except ValueFault Int := do
  let places ← (Text.splitOn ':' t).mapM (intInBase 10)
  return places.foldl (fun n d => n * 60 + d) 0

/-- A sign that a number is taken with. -/
def withSign (negative : Bool) (n : Int) : Int := if negative then -n else n

/-- A whole number without its sign. -/
def magnitudeOf (t : Text) : Except ValueFault Int :=
  match t with
  | [] => .error .emptyNumber
  | ['0'] => .ok 0
  | '0' :: 'b' :: rest => intInBase 2 rest
  | '0' :: 'x' :: rest => intInBase 16 rest
  | '0' :: _ => intInBase 8 t
  | _ => if t.contains ':' then intBySixties t else intInBase 10 t

/-- The whole number that a scalar stands for. -/
def intOf (t : Text) : Except ValueFault Int :=
  let t := t.filter (· != '_')
  let (negative, body) := takeSign t
  if t.isEmpty then .error .emptyNumber
  else (magnitudeOf body).map (withSign negative)

/-- A floating-point number in decimal. -/
def plainFloat (t : Text) : Except ValueFault Binary64 :=
  match Binary64.ofText? t with
  | some x => .ok x
  | none => .error (.notFloat t.quoted)

/-- A floating-point number without its sign. -/
def floatMagnitude (t : Text) : Except ValueFault Binary64 :=
  if t = ".inf".toList then .ok (.infinite false)
  else if t = ".nan".toList then .ok .nan
  else if t.contains ':' then do
    let places ← (Text.splitOn ':' t).mapM plainFloat
    return Binary64.bySixties 1 (.ofFraction 0 1) places.reverse
  else plainFloat t

/-- The floating-point number that a scalar stands for. -/
def floatOf (t : Text) : Except ValueFault Binary64 :=
  let t := Text.lower (t.filter (· != '_'))
  let (negative, body) := takeSign t
  if t.isEmpty then .error .emptyNumber
  else (floatMagnitude body).map fun x => if negative then x.negate else x

/-- The truth value that a word stands for. -/
def boolOf (t : Text) : Except ValueFault Bool :=
  let word := Text.lower t
  if ["yes", "true", "on"].any (·.toList == word) then .ok true
  else if ["no", "false", "off"].any (·.toList == word) then .ok false
  else .error (.unknownWord word.quoted)

/-- The date or the moment that a scalar stands for. -/
def momentOf (t : Text) : Except ValueFault Data :=
  match Moment.ofText? t with
  | none => .error .notDate
  | some m =>
    match m.fault? with
    | some f => .error (.noSuchDate f)
    | none => .ok (if m.time.isSome then .moment m.text else .date m.text)

/-- A value, with what is wrong with it as a fault of its document. -/
def orFault {α : Type} (make : α → Data) : Except ValueFault α → Except Fault Data
  | .ok a => .ok (make a)
  | .error f => .error (.value f)

/-- What a scalar with a tag stands for. -/
def scalarValue (tag : Tag) (t : Text) : Except Fault Data :=
  match tag with
  | .null => .ok .null
  | .text => .ok (.text t)
  | .bool => orFault .bool (boolOf t)
  | .int => orFault .int (intOf t)
  | .float => orFault .float (floatOf t)
  | .timestamp => orFault id (momentOf t)
  | .binary =>
    match Base64.decode? t with
    | some bytes => .ok (.bytes bytes)
    | none => .error .malformed
  | .sequence | .mapping | .set | .orderedMapping | .pairs | .merge | .value | .unknown =>
    .error .malformed

end EnvAudit.Yaml
