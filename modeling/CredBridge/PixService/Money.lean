import CredBridge.Lib.Decimal
import CredBridge.Lib.Result
import CredBridge.PixService.Models

/-! # Amounts in reais and in cents

What the service makes of the text of an amount, in the decimal arithmetic of the runtime. The request schemas let an
amount through that is above zero and that `validate_brl_amount` does not refuse. -/

namespace CredBridge.PixService.Money
open Result

/-- What `str` writes, and the `Decimal` of that. -/
structure Amount where
  text : String
  decimal : Decimal

/-- Digits that the arithmetic keeps. -/
def precision : Nat := 28

/-- An operation that the arithmetic calls invalid raises. -/
def signalling {α : Type} (result : Option α) : Except PyError α := orThrow result .other

/-- `int(d)`. -/
def toInt : Decimal → Except PyError Int
  | .finite x => pure x.truncate
  | _ => .error .other

def timesHundred : Decimal → Except PyError Decimal
  | .finite x => pure (.finite (x.mul precision (.ofInt 100)))
  | d => pure d

def brlToCents (amount : Amount) : Except PyError Int := do
  let d ← signalling (amount.decimal.quantize precision .halfUp (-2))
  let sign ← signalling d.sign?
  throwIf (sign < 0) (.valueError ("Valor BRL não pode ser negativo: " ++ amount.text))
  let cents ← timesHundred d
  toInt cents

def centsToBrlDecimal (cents : Int) : Except PyError FiniteDecimal :=
  signalling ((FiniteDecimal.ofInt cents).div precision (.ofInt 100))

def validateBrlAmount (amount : Amount) : Except PyError Unit := do
  let sign ← signalling amount.decimal.sign?
  throwIf (sign ≤ 0) (.valueError ("Valor BRL deve ser positivo: " ++ amount.text))
  match amount.decimal with
  | .finite x => throwIf (x.exponent < -2) (.valueError ("Valor BRL com mais de 2 casas decimais: " ++ amount.text))
  | _ => pure ()

/-- `gt=0` of the request schemas, and their validator. -/
def accepts (amount : Amount) : Bool :=
  amount.decimal.sign?.any (0 < ·) && (validateBrlAmount amount).toOption.isSome

end CredBridge.PixService.Money
