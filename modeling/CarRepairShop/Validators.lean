import CarRepairShop.Entities

/-! # Validators of documents, plates and phones

`entities/validators.ts`, on strings as lists of characters.
-/

namespace CarRepairShop

/-! ## Tax ids and phones -/

/-- `replace(/\D/g, '')`: the decimal digits of a string. -/
def onlyDigits (s : String) : List Char := s.toList.filter Char.isDigit

/-- `Number.parseInt` of one digit. -/
def digitValue (c : Char) : ℕ := c.toNat - '0'.toNat

/-- `/^(\d)\1+$/` on a string of digits: one digit, repeated. -/
def repeatedDigit : List Char → Bool
  | d :: e :: ds => (e :: ds).all (· == d)
  | _ => false

/-- `calcDigit` of `validateCPF`: the weights fall from `factor`. -/
def cpfDigit (slice : List Char) (factor : ℕ) : ℕ :=
  let sum := (slice.zipIdx.map fun (c, i) => digitValue c * (factor - i)).sum
  let rem := sum * 10 % 11
  if rem ≥ 10 then 0 else rem

def validateCPF (cpf : String) : Bool :=
  let digits := onlyDigits cpf
  if digits.length ≠ 11 then false
  else if repeatedDigit digits then false
  else cpfDigit (digits.take 9) 10 == digitValue (digits.getD 9 '0')
    && cpfDigit (digits.take 10) 11 == digitValue (digits.getD 10 '0')

/-- `calcDigit` of `validateCNPJ`, with the weights in a list. -/
def cnpjDigit (slice : List Char) (weights : List ℕ) : ℕ :=
  let sum := (List.zipWith (fun c w => digitValue c * w) slice weights).sum
  let rem := sum % 11
  if rem < 2 then 0 else 11 - rem

/-- `w1` of `validateCNPJ`. -/
def cnpjWeights1 : List ℕ := [5, 4, 3, 2, 9, 8, 7, 6, 5, 4, 3, 2]

/-- `w2` of `validateCNPJ`. -/
def cnpjWeights2 : List ℕ := [6, 5, 4, 3, 2, 9, 8, 7, 6, 5, 4, 3, 2]

def validateCNPJ (cnpj : String) : Bool :=
  let digits := onlyDigits cnpj
  if digits.length ≠ 14 then false
  else if repeatedDigit digits then false
  else cnpjDigit (digits.take 12) cnpjWeights1 == digitValue (digits.getD 12 '0')
    && cnpjDigit (digits.take 13) cnpjWeights2 == digitValue (digits.getD 13 '0')

def validateTaxId (value : String) : TaxType → Bool
  | .cpf => validateCPF value
  | .cnpj => validateCNPJ value

def minPhoneDigits : ℕ := 10

def maxPhoneDigits : ℕ := 11

def validatePhone (phone : String) : Bool :=
  let digits := onlyDigits phone
  digits.length ≥ minPhoneDigits && digits.length ≤ maxPhoneDigits

/-! ## Plates -/

/-- `toUpperCase` of one character, as far as the result can be letters `A` to
`Z`: some letters outside ASCII have such an upper case too. -/
def upperCase (c : Char) : List Char :=
  if c.isLower then [c.toUpper]
  else match c with
  | 'ı' => ['I']
  | 'ſ' => ['S']
  | 'ß' => ['S', 'S']
  | 'ﬀ' => ['F', 'F']
  | 'ﬁ' => ['F', 'I']
  | 'ﬂ' => ['F', 'L']
  | 'ﬃ' => ['F', 'F', 'I']
  | 'ﬄ' => ['F', 'F', 'L']
  | 'ﬅ' => ['S', 'T']
  | 'ﬆ' => ['S', 'T']
  | c => [c]

/-- The characters `\s` matches. -/
def isSpace (c : Char) : Bool :=
  let n := c.toNat
  (9 ≤ n && n ≤ 13) || n == 0x20 || n == 0xa0 || n == 0x1680 || (0x2000 ≤ n && n ≤ 0x200a)
    || n == 0x2028 || n == 0x2029 || n == 0x202f || n == 0x205f || n == 0x3000 || n == 0xfeff

/-- `plate.toUpperCase().replace(/\s/g, '')`. -/
def normalizePlate (plate : String) : List Char :=
  (plate.toList.flatMap upperCase).filter (fun c => !isSpace c)

/-- `/^[A-Z]{3}-?\d{4}$/` and `/^[A-Z]{3}\d[A-Z]\d{2}$/`. -/
def validatePlate (plate : String) : Bool :=
  match normalizePlate plate with
  | [a, b, c, d, e, f, g] =>
      [a, b, c].all Char.isUpper && d.isDigit && (e.isDigit || e.isUpper) && f.isDigit && g.isDigit
  | [a, b, c, h, d, e, f, g] =>
      [a, b, c].all Char.isUpper && h == '-' && [d, e, f, g].all Char.isDigit
  | _ => false

end CarRepairShop
