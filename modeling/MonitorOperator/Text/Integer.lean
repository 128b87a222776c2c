/-!
Decimal integers in text: a sign may stand before the digits, which are ASCII.
-/

namespace MonitorOperator.Text

def digits? (cs : List Char) : Option Nat :=
  if cs.isEmpty || !cs.all Char.isDigit then none
  else some (cs.foldl (fun n c => n * 10 + (c.toNat - '0'.toNat)) 0)

def integer? (low high : Int) (cs : List Char) : Option Int :=
  let value : Option Int := match cs with
    | '-' :: rest => (digits? rest).map (fun n => -(n : Int))
    | '+' :: rest => (digits? rest).map (fun n => (n : Int))
    | rest => (digits? rest).map (fun n => (n : Int))
  value.filter (fun i => low ≤ i ∧ i ≤ high)

end MonitorOperator.Text
