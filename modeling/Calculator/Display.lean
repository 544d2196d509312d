import Calculator.Binary64.Positional
import Calculator.Settings

/-!
# Displayed results

`display` shows a number: a finite one in positional notation, with the fewest digits that read back
as the number and at most the given number of decimal places, and the others by name.
-/

namespace Calculator

/-- The text of a number with at most `places` decimal places; a finite number needs a number of
places that is not negative. -/
def display (s : Settings) (places : Int) (x : Binary64) : Except Failure Text :=
  match x with
  | .nan => .ok s.nanText
  | .infinity negative => .ok (if negative then '-' :: s.infinityText else s.infinityText)
  | .finite .. =>
    if places < 0 then .error .negativePlaces else .ok (x.toDecimal places.toNat).toText

/-- The text of a result. -/
def displayResult (s : Settings) (x : Binary64) : Except Failure Text := display s s.places x

end Calculator
