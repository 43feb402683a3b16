import Mathlib.Data.List.DropRight
import Zd1200.Lib.BigEndian
import Zd1200.Patch.Pattern

/-!
# The Board's Identity

`zd_identity.py`: the serial number and the base address of a board, from the
operator, from the file of an earlier run, or made up.

A second address follows from the first, since the board has two and they are
consecutive. So an address is accepted only if its successor is a locally
administered unicast address as well. `parseMac` checks that of an address that
is given and of one that is read from the file. An address that is made up is
not parsed, and `resolveIdentity_ok` says what is known of it instead: it is
`02` and five random bytes.

Whatever way an address was written, it leaves the program in one form, six
pairs of lower-case digits with colons between. `octetsOf_formatMac` reads that
form back.

## Main definitions

* `pyInt16`: `int(text, 16)`.
* `parseMac`, `formatMac`: Reading and writing an address.
* `parseIdentity`, `writeIdentity`: Reading and writing the file.
* `resolveIdentity`: The identity of a run.

## Theorems

* `octetsOf_formatMac`: A written address is read back.
* `parseMac_ok`: What is known of an address that is accepted.
* `beNat_nextMac`: The successor of a local unicast address does not wrap.
* `isLocalUnicast_nextMac_iff`: When the successor of a made up address is usable.
* `resolveIdentity_ok`: What is known of an identity.
-/

namespace Zd1200

namespace Board

/-- What `int` takes for a blank: the blanks of C, and from 127 on those of
    Unicode. -/
def isIntBlank (c : Char) : Bool :=
  if c.toNat < 127 then c.toNat = 32 ∨ (9 ≤ c.toNat ∧ c.toNat ≤ 13) else isSpace c

/-- `int(text, 16)`. -/
def pyInt16 (text : List Char) : Option Int :=
  let body := (text.dropWhile isIntBlank).rdropWhile isIntBlank
  let (negative, number) := match body with
    | '+' :: rest => (false, rest)
    | '-' :: rest => (true, rest)
    | _ => (false, body)
  let digits := match number with
    | '0' :: x :: rest =>
        if x = 'x' ∨ x = 'X' then if rest.head? = some '_' then rest.tail else rest else number
    | _ => number
  -- Single underscores may stand between the digits.
  let groups := digits.splitOn '_'
  if [] ∈ groups then none
  else do
    let values ← groups.flatten.mapM digitValue
    let value : Nat := values.foldl (fun n d => 16 * n + d) 0
    return if negative then - (value : Int) else value

/-- `bytes(int(part, 16) for part in parts)`. -/
def octetsOf (parts : List (List Char)) : Except PyError Bytes :=
  parts.mapM fun part =>
    match pyInt16 part with
    | none => .error (.valueError ("invalid literal for int() with base 16: " ++
        String.ofList ((reprText part).toList.take 200)))
    | some value =>
        if 0 ≤ value ∧ value < 256 then .ok value.toNat.toUInt8
        else .error (.valueError "bytes must be in range(0, 256)")

/-- `not (mac[0] & 1 or not mac[0] & 2)`. -/
def isLocalUnicast (mac : Bytes) : Bool := mac.head?.any fun c => c &&& 1 = 0 ∧ c &&& 2 ≠ 0

/-- `(int.from_bytes(mac, "big") + 1).to_bytes(6, "big")`. -/
def nextMac (mac : Bytes) : Bytes := beBytes 6 (beNat mac + 1)

def validateSerial (serial : List Char) : Except PyError (List Char) := do
  raiseIf (¬ (1 ≤ serial.length ∧ serial.length ≤ 15 ∧
      serial.all fun c => c.isAlphanum ∨ c = '_' ∨ c = '-'))
    (.valueError "serial must contain 1..15 letters, digits, '_' or '-'")
  return serial

def parseMac (value : List Char) : Except PyError Bytes := do
  let parts := value.splitOn ':'
  raiseIf (parts.length ≠ 6 ∨ parts.any fun part => part.length ≠ 2)
    (.valueError "MAC must use six colon-separated hexadecimal octets")
  let mac ← (octetsOf parts).mapError fun _ =>
    .valueError "MAC must use six colon-separated hexadecimal octets"
  raiseIf (¬ isLocalUnicast mac) (.valueError "MAC must be a locally administered unicast address")
  raiseIf (¬ isLocalUnicast (nextMac mac))
    (.valueError "MAC leaves no valid locally administered unicast MAC2")
  return mac

def hexByte (c : UInt8) : List Char := [Nat.digitChar (c.toNat / 16), Nat.digitChar (c.toNat % 16)]

/-- `mac.hex(":")`. -/
def formatMac (mac : Bytes) : List Char := [':'].intercalate (mac.map hexByte)

/-! ### The file -/

/-- The line ends of `str.splitlines` in ASCII. -/
def isLineEnd (c : Char) : Bool := (10 ≤ c.toNat ∧ c.toNat ≤ 13) ∨ (28 ≤ c.toNat ∧ c.toNat ≤ 30)

/-- `str.splitlines`. -/
def splitLines : List Char → List (List Char)
  | [] => []
  | '\r' :: '\n' :: rest => [] :: splitLines rest
  | c :: rest =>
      if isLineEnd c then [] :: splitLines rest
      else
        match splitLines rest with
        | [] => [[c]]
        | line :: lines => (c :: line) :: lines

/-- `read_text(encoding="ascii")`. Line ends are left to `splitLines`. -/
def readAscii (contents : Bytes) : Except PyError (List Char) :=
  match contents.findIdx? fun c => 128 ≤ c with
  | some i => .error (.valueError
      ("'ascii' codec can't decode byte 0x" ++ String.ofList (hexByte (contents.getD i 0)) ++
        " in position " ++ toString i ++ ": ordinal not in range(128)"))
  | none => .ok (contents.map fun c => Char.ofNat c.toNat)

/-- The values that have been read so far. -/
structure IdentityValues where
  serial : Option (List Char)
  mac : Option (List Char)

/-- One line of the file. -/
def parseLine (path : String) (values : IdentityValues) (line : List Char) :
    Except PyError IdentityValues := do
  let key := line.takeWhile (· ≠ '=')
  let value := line.drop (key.length + 1)
  raiseIf ('=' ∉ line) (.valueError ("invalid identity file " ++ path))
  if key = "ZD_SERIAL".toList then
    raiseIf values.serial.isSome (.valueError ("invalid identity file " ++ path))
    return { values with serial := some value }
  else if key = "ZD_MAC1".toList then
    raiseIf values.mac.isSome (.valueError ("invalid identity file " ++ path))
    return { values with mac := some value }
  else .error (.valueError ("invalid identity file " ++ path))

/-- `parse_identity`. -/
def parseIdentity (path : String) (contents : Bytes) : Except PyError (List Char × List Char) := do
  let text ← readAscii contents
  let values ← (splitLines text).foldlM (parseLine path) ⟨none, none⟩
  match values.serial, values.mac with
  | some serial, some mac =>
      let serial ← validateSerial serial
      let mac ← parseMac mac
      return (serial, formatMac mac)
  | _, _ => .error (.valueError ("invalid identity file " ++ path))

/-- The contents that `write_identity` writes. -/
def writeIdentity (serial mac : List Char) : Bytes :=
  ("ZD_SERIAL=".toList ++ serial ++ "\nZD_MAC1=".toList ++ mac ++ ['\n']).map fun c => c.toNat.toUInt8

/-! ### The identity of a run -/

inductive IdentitySource
  | operatorOverride
  | persistentState
  | generated
  deriving DecidableEq, Repr

structure BoardIdentity where
  serial : List Char
  mac : List Char
  source : IdentitySource
  deriving DecidableEq, Repr

instance neZero_serials : NeZero (10 ^ 12) := ⟨by decide⟩

/-- The identity file, if there is one, and what the random generators would
    give. -/
structure IdentityEnv where
  path : String
  file : Option Bytes
  number : Fin (10 ^ 12)
  token : Bytes
  token_length : token.length = 5

/-- `f"{n:012d}"`. -/
def serialOfNumber (n : Nat) : List Char :=
  (List.range 12).map fun i => Nat.digitChar (n / 10 ^ (11 - i) % 10)

/-- `generate_identity`. -/
def generateIdentity (env : IdentityEnv) : List Char × List Char :=
  (serialOfNumber env.number, formatMac (0x02 :: env.token))

/-- `resolve_identity`: the identity and the file afterwards. -/
def resolveIdentity (env : IdentityEnv) (serialOverride macOverride : List Char) :
    Except PyError (BoardIdentity × Option Bytes) := do
  raiseIf (serialOverride.isEmpty ≠ macOverride.isEmpty)
    (.valueError "set both ZD_SERIAL and ZD_MAC1, or leave both unset")
  if serialOverride ≠ [] then
    let serial ← validateSerial serialOverride
    let mac ← parseMac macOverride
    return (⟨serial, formatMac mac, .operatorOverride⟩, env.file)
  else
    match env.file with
    | some contents =>
        let (serial, mac) ← parseIdentity env.path contents
        return (⟨serial, mac, .persistentState⟩, env.file)
    | none =>
        -- What is made up is not validated.
        let (serial, mac) := generateIdentity env
        return (⟨serial, mac, .generated⟩, some (writeIdentity serial mac))

/-! ### Addresses -/

theorem pyInt16_hexByte (c : UInt8) : pyInt16 (hexByte c) = some (c.toNat : Int) := by
  have hall : ∀ n : Fin 256, pyInt16 (hexByte n.val.toUInt8) = some (n.val : Int) := by
    decide +kernel
  have h := hall ⟨c.toNat, c.toNat_lt⟩
  simpa using h

theorem octetsOf_map_hexByte (mac : Bytes) : octetsOf (mac.map hexByte) = .ok mac := by
  rw [octetsOf, mapM_ok_iff, List.forall₂_map_left_iff, List.forall₂_same]
  intro c _
  have hlt := c.toNat_lt
  simp only [pyInt16_hexByte]
  rw [if_pos ⟨Int.natCast_nonneg _, by omega⟩, Int.toNat_natCast]
  simp

theorem splitOn_formatMac (mac : Bytes) (h : mac ≠ []) :
    (formatMac mac).splitOn ':' = mac.map hexByte := by
  have hcolon : ∀ c : UInt8, ':' ∉ hexByte c := by
    have hall : ∀ n : Fin 256, ':' ∉ hexByte n.val.toUInt8 := by decide +kernel
    intro c
    have hc := hall ⟨c.toNat, c.toNat_lt⟩
    simpa using hc
  rw [formatMac, List.splitOn_intercalate ':' ?_ ?_]
  · intro part hpart
    rcases List.mem_map.mp hpart with ⟨c, _, rfl⟩
    exact hcolon c
  · rwa [ne_eq, List.map_eq_nil_iff]

/-- A written address is read back. -/
theorem octetsOf_formatMac (mac : Bytes) (h : mac ≠ []) :
    octetsOf ((formatMac mac).splitOn ':') = .ok mac := by
  rw [splitOn_formatMac mac h, octetsOf_map_hexByte]

/-- What is known of an address that is accepted. -/
theorem parseMac_ok (value : List Char) (mac : Bytes) (h : parseMac value = .ok mac) :
    mac.length = 6 ∧ isLocalUnicast mac ∧ isLocalUnicast (nextMac mac) := by
  simp only [parseMac, bind_ok_iff, raiseIf_ok_iff, pure_ok_iff, exists_const, not_not, not_or] at h
  rcases h with ⟨⟨hlength, -⟩, octets, hoctets, hlocal, hnext, rfl⟩
  refine ⟨?_, hlocal, hnext⟩
  unfold Except.mapError at hoctets
  split at hoctets
  · exact absurd hoctets (by simp only [reduceCtorEq, not_false_eq_true])
  · next mac hmac =>
    rw [Except.ok.injEq] at hoctets
    rw [← hoctets, ← ((mapM_ok_iff _ _ _).mp hmac).length_eq, hlength]

/-- The successor of a local unicast address does not wrap. -/
theorem beNat_nextMac (mac : Bytes) (hlength : mac.length = 6) (h : isLocalUnicast mac) :
    beNat mac + 1 < 256 ^ 6 ∧ beNat (nextMac mac) = beNat mac + 1 := by
  have hlt : beNat mac + 1 < 256 ^ 6 := by
    cases mac with
    | nil => exact absurd hlength (by simp only [List.length_nil, OfNat.zero_ne_ofNat,
        not_false_eq_true])
    | cons c rest =>
        have hrest : rest.length = 5 := by simpa using hlength
        have hbound := beNat_lt rest
        -- The group bit of the first byte is clear, so it is not the last byte value.
        have hc : c.toNat ≠ 255 := by
          intro h255
          have hc255 : c = 255 := UInt8.toNat_inj.mp h255
          rw [hc255] at h
          exact absurd h (Bool.eq_false_iff.mp rfl)
        have hc' := c.toNat_lt
        rw [hrest] at hbound
        rw [beNat_cons, hrest]
        omega
  exact ⟨hlt, beNat_beBytes 6 _ hlt⟩

/-- An address that is made up has a local unicast successor unless its random
    bytes are all ones. -/
theorem isLocalUnicast_nextMac_iff (token : Bytes) (hlength : token.length = 5) :
    isLocalUnicast (nextMac (0x02 :: token)) ↔ token ≠ List.replicate 5 0xff := by
  constructor
  · rintro h rfl
    exact absurd h (by decide +kernel)
  · intro hne
    have hlt : beNat token + 1 < 256 ^ 5 := by
      have hbound := beNat_lt token
      rw [hlength] at hbound
      by_contra hge
      refine hne (beNat_inj hlength ?_)
      have hones : beNat (List.replicate 5 0xff) = 256 ^ 5 - 1 := by decide +kernel
      rw [hones]
      omega
    -- Without a carry out of the random bytes the first byte stays.
    have hnext : nextMac (0x02 :: token) = 0x02 :: beBytes 5 (beNat token + 1) := by
      refine beNat_inj ?_ ?_
      · rw [nextMac, length_beBytes, List.length_cons, length_beBytes]
      · have htwo : (2 : UInt8).toNat = 2 := rfl
        rw [nextMac, beNat_cons, hlength, beNat_cons, length_beBytes, beNat_beBytes 5 _ hlt,
          beNat_beBytes, htwo]
        · omega
        · rw [htwo]
          omega
    rw [hnext]
    rfl

/-! ### What is known of an identity -/

/-- 1 to 15 letters, digits, `_` or `-`. -/
def IsSerial (serial : List Char) : Prop :=
  1 ≤ serial.length ∧ serial.length ≤ 15 ∧ ∀ c ∈ serial, c.isAlphanum ∨ c = '_' ∨ c = '-'

/-- There is nothing to go by, and the random bytes of the address are all ones. -/
def MakesUpLast (env : IdentityEnv) (serialOverride macOverride : List Char) : Prop :=
  serialOverride = [] ∧ macOverride = [] ∧ env.file = none ∧ env.token = List.replicate 5 0xff

theorem validateSerial_ok (serial serial' : List Char) (h : validateSerial serial = .ok serial') :
    serial' = serial ∧ IsSerial serial := by
  simp only [validateSerial, bind_ok_iff, raiseIf_ok_iff, pure_ok_iff, exists_const, not_not,
    List.all_eq_true, decide_eq_true_eq, Bool.decide_or, Bool.or_eq_true] at h
  exact ⟨h.2.symm, h.1⟩

theorem isSerial_serialOfNumber (n : Nat) : IsSerial (serialOfNumber n) := by
  refine ⟨?_, ?_, ?_⟩
  · rw [serialOfNumber, List.length_map, List.length_range]
    omega
  · rw [serialOfNumber, List.length_map, List.length_range]
    omega
  · intro c hc
    rcases List.mem_map.mp hc with ⟨i, _, rfl⟩
    have hdigit : ∀ d : Fin 10, (Nat.digitChar d).isAlphanum := by decide
    exact Or.inl (hdigit ⟨_, Nat.mod_lt _ (by omega)⟩)

theorem parseIdentity_ok (path : String) (contents : Bytes) (serial mac : List Char)
    (h : parseIdentity path contents = .ok (serial, mac)) :
    IsSerial serial ∧ ∃ value octets, parseMac value = .ok octets ∧ mac = formatMac octets := by
  simp only [parseIdentity, bind_ok_iff] at h
  rcases h with ⟨text, -, values, -, h⟩
  split at h
  · simp only [bind_ok_iff, pure_ok_iff, Prod.mk.injEq] at h
    rcases h with ⟨serial', hserial, octets, hoctets, rfl, rfl⟩
    rcases validateSerial_ok _ _ hserial with ⟨rfl, hvalid⟩
    exact ⟨hvalid, _, octets, hoctets, rfl⟩
  · exact absurd h (by simp only [reduceCtorEq, not_false_eq_true])

/-- What is known of an identity. -/
theorem resolveIdentity_ok (env : IdentityEnv) (serialOverride macOverride : List Char)
    (identity : BoardIdentity) (file : Option Bytes)
    (h : resolveIdentity env serialOverride macOverride = .ok (identity, file)) :
    IsSerial identity.serial ∧ ∃ mac, identity.mac = formatMac mac ∧ mac.length = 6 ∧
      isLocalUnicast mac ∧
      (isLocalUnicast (nextMac mac) ↔ ¬ MakesUpLast env serialOverride macOverride) := by
  simp only [resolveIdentity, bind_ok_iff, raiseIf_ok_iff, exists_const, not_not, ne_eq] at h
  rcases h with ⟨hboth, h⟩
  -- An address that went through `parseMac` has a local unicast successor.
  have parsed : ∀ value octets, parseMac value = .ok octets →
      ¬ MakesUpLast env serialOverride macOverride → identity.mac = formatMac octets →
      ∃ mac, identity.mac = formatMac mac ∧ mac.length = 6 ∧ isLocalUnicast mac ∧
        (isLocalUnicast (nextMac mac) ↔ ¬ MakesUpLast env serialOverride macOverride) := by
    intro value octets hparse hnot hmac
    rcases parseMac_ok value octets hparse with ⟨hlength, hlocal, hnext⟩
    exact ⟨octets, hmac, hlength, hlocal, fun _ => hnot, fun _ => hnext⟩
  split at h
  · next hgiven =>
    simp only [bind_ok_iff, pure_ok_iff, Prod.mk.injEq] at h
    rcases h with ⟨serial, hserial, octets, hoctets, rfl, -⟩
    rcases validateSerial_ok _ _ hserial with ⟨rfl, hvalid⟩
    exact ⟨hvalid, parsed _ octets hoctets (fun hlast => hgiven hlast.1) rfl⟩
  · next hempty =>
    split at h
    · next contents hfile =>
      simp only [bind_ok_iff, pure_ok_iff, Prod.mk.injEq, Prod.exists] at h
      rcases h with ⟨serial, mac, hparse, rfl, -⟩
      rcases parseIdentity_ok _ _ _ _ hparse with ⟨hvalid, value, octets, hoctets, hmac⟩
      refine ⟨hvalid, parsed value octets hoctets (fun hlast => ?_) hmac⟩
      exact absurd (hfile.symm.trans hlast.2.2.1) (by simp only [reduceCtorEq, not_false_eq_true])
    · next hfile =>
      simp only [generateIdentity, pure_ok_iff, Prod.mk.injEq] at h
      rcases h with ⟨rfl, -⟩
      refine ⟨isSerial_serialOfNumber _, 0x02 :: env.token, rfl, ?_, rfl, ?_⟩
      · rw [List.length_cons, env.token_length]
      · rw [isLocalUnicast_nextMac_iff _ env.token_length]
        have hserial : serialOverride = [] := not_not.mp hempty
        have hmac : macOverride = [] := by simpa [hserial] using hboth
        unfold MakesUpLast
        simp only [hserial, hmac, hfile, true_and, ne_eq]

end Board

end Zd1200
