import Mathlib.Algebra.Ring.Int.Defs
import Mathlib.Data.List.TakeWhile
import Mathlib.Data.List.Infix
import Zd1200.Lib.Slice

/-!
# C Strings and Tags

What the C tools do with text: the string functions they call, and the two
functions of their own with which they read XML.

A text is a byte string without a terminating zero. A position in it is an
offset, and a pointer that a C function returns is the offset it points to.
`attr` gets the whole text and three offsets' worth of context, as the C
function does: its search starts at the tag and is not confined to it, and
only afterwards is the hit compared with the tag's end.

The monitor's loops over tags all have one shape: search for the opening,
search for the next `>`, look at the tag, go on behind it. `tagsFrom` is that
shape. What a loop does with a tag is then a function of the two offsets.

## Main definitions

* `ascii`: A text constant.
* `cText`: A file's contents as a C string.
* `attr`: The value of an attribute.
* `tagsFrom`: The tags of a text.
* `validMac`, `strcasecmp`, `atoi`, `strtol`, `inetPton`: Readers of values.
* `sqliteLength`: The length of a text in characters.

## Theorems

* `mem_tagsFrom`: A tag starts with its opening and ends at the next `>`.
* `strcasecmp_eq_iff`: Equality ignoring case.
-/

namespace Zd1200

/-- A text constant of the source. -/
def ascii (text : String) : Bytes := text.toList.map fun c => c.toNat.toUInt8

/-- A file's contents, read into memory and closed with a zero byte. -/
def cText (contents : Bytes) : Bytes := contents.takeWhile (· ≠ 0)

/-! ### Tags and attributes -/

/-- The value of the attribute `name`, searched for from `tag` on. -/
def attr (text : Bytes) (tag stop : Nat) (name : String) : Option Bytes :=
  let needle := ascii (" " ++ name ++ "=\"")
  match findFrom text needle tag with
  | none => none
  | some hit =>
      if stop ≤ hit then none
      else
        let start := hit + needle.length
        match findFrom text (ascii "\"") start with
        | none => none
        | some quote => if stop < quote then none else some ((text.drop start).take (quote - start))

/-- The loop over the tags of a text, from an offset on: each tag with the
    offset of its `>`. The loop ends at a tag without one. -/
def tagsFrom (text opening : Bytes) : Nat → Nat → List (Nat × Nat)
  | 0, _ => []
  | fuel + 1, start =>
      match findFrom text opening start with
      | none => []
      | some tag =>
          match findFrom text (ascii ">") tag with
          | none => []
          | some stop => (tag, stop) :: tagsFrom text opening fuel (stop + 1)

/-- The tags of a text. Every round goes forward, so the fuel is enough. -/
def tags (text opening : Bytes) : List (Nat × Nat) := tagsFrom text opening (text.length + 1) 0

/-- A tag starts with its opening and ends at the next `>`. -/
theorem mem_tagsFrom (text opening : Bytes) (hne : opening ≠ []) (fuel start : Nat)
    (tag stop : Nat) (h : (tag, stop) ∈ tagsFrom text opening fuel start) :
    start ≤ tag ∧ Occurs text opening tag ∧ findFrom text (ascii ">") tag = some stop := by
  induction fuel generalizing start with
  | zero => exact absurd h List.not_mem_nil
  | succ fuel ih =>
      rw [tagsFrom] at h
      cases htag : findFrom text opening start with
      | none => rw [htag] at h; exact absurd h List.not_mem_nil
      | some first =>
          simp only [htag] at h
          rcases (findFrom_eq_some_iff text opening start first hne).mp htag with ⟨hle, hocc, -⟩
          cases hstop : findFrom text (ascii ">") first with
          | none => simp only [hstop] at h; exact absurd h List.not_mem_nil
          | some close =>
              simp only [hstop] at h
              rcases List.mem_cons.mp h with heq | hmem
              · rw [Prod.mk.injEq] at heq
                rw [heq.1, heq.2]
                exact ⟨hle, hocc, hstop⟩
              · have hclose := ((findFrom_eq_some_iff text _ first close (by decide)).mp hstop).1
                rcases ih (close + 1) hmem with ⟨hge, hocc', hstop'⟩
                exact ⟨by omega, hocc', hstop'⟩

/-! ### Values -/

def isDigit (c : UInt8) : Bool := 48 ≤ c ∧ c ≤ 57

/-- `isspace` in the C locale. -/
def isBlank (c : UInt8) : Bool := c = 32 ∨ (9 ≤ c ∧ c ≤ 13)

def isxdigit (c : UInt8) : Bool := isDigit c ∨ (65 ≤ c ∧ c ≤ 70) ∨ (97 ≤ c ∧ c ≤ 102)

def tolower (c : UInt8) : UInt8 := if 65 ≤ c ∧ c ≤ 90 then c + 32 else c

def lowercase (text : Bytes) : Bytes := text.map tolower

/-- The order of two texts ignoring case, for `strcasecmp` and for the
    collation `NOCASE` alike. -/
def strcasecmp (a b : Bytes) : Ordering := compare (lowercase a) (lowercase b)

theorem strcasecmp_eq_iff (a b : Bytes) : strcasecmp a b = .eq ↔ lowercase a = lowercase b :=
  Std.LawfulEqOrd.compare_eq_iff_eq

/-- Seventeen characters: six pairs of hexadecimal digits with colons between. -/
def validMac (mac : Bytes) : Bool :=
  mac.length = 17 ∧ mac.zipIdx.all fun (c, i) => if i % 3 = 2 then c = 58 else isxdigit c

/-- The decimal number that digits stand for. -/
def decimal (digits : Bytes) : Nat := digits.foldl (fun n c => 10 * n + (c.toNat - 48)) 0

/-- Blanks, a sign and digits at the front of a text: the number and what is
    left. Without digits nothing is consumed. -/
def readInteger (text : Bytes) : Int × Bytes :=
  let body := text.dropWhile isBlank
  let signed := match body with
    | 45 :: rest => (true, rest)
    | 43 :: rest => (false, rest)
    | _ => (false, body)
  let digits := signed.2.takeWhile isDigit
  if digits = [] then (0, text)
  else (if signed.1 then - (decimal digits : Int) else decimal digits, signed.2.drop digits.length)

/-- `atoi`: a 32-bit integer, which wraps around. -/
def atoi (text : Bytes) : Int := Int.bmod (readInteger text).1 (2 ^ 32)

/-- `strtol` in base 10: a 32-bit integer, which is clamped, and the end. -/
def strtol (text : Bytes) : Int × Bytes :=
  let (value, rest) := readInteger text
  (max (- 2 ^ 31) (min value (2 ^ 31 - 1)), rest)

/-- One to three digits without a leading zero, at most 255. -/
def octet (text : Bytes) : Option Nat :=
  if text.all isDigit ∧ 1 ≤ text.length ∧ text.length ≤ 3 ∧ decimal text ≤ 255 ∧
      (text.length = 1 ∨ text.head? ≠ some 48) then some (decimal text)
  else none

/-- `inet_pton` for IPv4: four octets with dots between. -/
def inetPton (text : Bytes) : Option (List Nat) :=
  let parts := text.splitOn 46
  if parts.length = 4 then parts.mapM octet else none

/-- The characters of a text, as `length` counts them: a lead byte from `0xc0`
    on swallows the continuation bytes behind it. -/
def charCount : Bool → Bytes → Nat
  | _, [] => 0
  | inside, c :: rest =>
      if inside && c &&& 0xc0 == 0x80 then charCount true rest
      else charCount (decide (0xc0 ≤ c)) rest + 1

def sqliteLength (text : Bytes) : Nat := charCount false text

end Zd1200
