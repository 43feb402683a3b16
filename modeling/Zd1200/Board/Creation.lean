import Mathlib.Logic.Function.Basic
import Zd1200.Lib.Delimited
import Zd1200.Lib.Script
import Zd1200.Board.Identity

/-!
# The Identity Across Calls

`resolve_identity` without overrides, called again and again on one state
directory, by processes that can be killed.

The file is written under the name of a temporary that has the process number
in it, and renamed when it is complete. So a file that is found is complete,
and its identity stays (`returnedBy_same`). The temporary is
created exclusively. One that a killed call has left is in the way of every
later call with the same process number, as long as there is no file.

A made-up identity is returned without being parsed. The one whose address has
no usable successor is refused by every later call (`parseIdentity_generated`).

## Main definitions

* `IdentityStore`: The files, and what the current call has returned.
* `IdentityCall`: A call and when it is killed.
* `callScript`: The commands of a call.
* `runCall`: A call is made.
* `CanCreate`: A call is not in one of the two ways of failing.

## Theorems

* `parseIdentity_writeIdentity`: A written file is read back.
* `callScript_found`, `callScript_made`: What a call leaves, wherever it is
  killed.
* `callScript_yields`: A call that is not killed succeeds.
* `callScript_resolves`: A call returns what `resolveIdentity` does.
* `identity_recovers`: What holds of every sequence of calls.
-/

namespace Zd1200

namespace Board

/-- The state directory, with the temporaries by their process numbers, and
    what the current call has returned. -/
structure IdentityStore where
  file : Option Bytes
  temporary : Nat → Option Bytes
  returned : Option (List Char × List Char)

/-- A call: its process number, what the random generators give it, and the
    number of commands after which it is killed. -/
structure IdentityCall where
  pid : Nat
  number : Fin (10 ^ 12)
  token : Bytes
  token_length : token.length = 5
  commands : Nat

/-- What `resolveIdentity` knows of a call. -/
def IdentityCall.env (call : IdentityCall) (path : String) (file : Option Bytes) : IdentityEnv where
  path := path
  file := file
  number := call.number
  token := call.token
  token_length := call.token_length

/-- What a call makes up. -/
def IdentityCall.generated (call : IdentityCall) : List Char × List Char :=
  generateIdentity (call.env "" none)

/-- The file that a call writes. -/
def IdentityCall.contents (call : IdentityCall) : Bytes :=
  writeIdentity call.generated.1 call.generated.2

/-- `os.open(temporary, os.O_WRONLY | os.O_CREAT | os.O_EXCL)`. -/
def openExclusive (pid : Nat) (s : IdentityStore) : Option IdentityStore :=
  match s.temporary pid with
  | some _ => none
  | none => some { s with temporary := Function.update s.temporary pid (some []) }

/-- A byte is written to the temporary. -/
def appendByte (pid : Nat) (byte : UInt8) (s : IdentityStore) : IdentityStore :=
  { s with
    temporary := Function.update s.temporary pid ((s.temporary pid).map fun done => done ++ [byte]) }

/-- `os.replace(temporary, path)`. -/
def replaceFile (pid : Nat) (s : IdentityStore) : IdentityStore :=
  { s with file := s.temporary pid, temporary := Function.update s.temporary pid none }

def returnIdentity (identity : List Char × List Char) (s : IdentityStore) : IdentityStore :=
  { s with returned := some identity }

/-- `write_identity`. The contents can be cut off anywhere. Neither `fsync` nor
    `chmod` changes what is read. -/
def writeScript (call : IdentityCall) : Script IdentityStore :=
  (Script.cmd (openExclusive call.pid)).seq <|
  (Script.forEach call.contents fun byte => Script.act (appendByte call.pid byte)).seq <|
  (Script.act id).seq <|
  (Script.act (replaceFile call.pid)).seq <|
  Script.act id

/-- `resolve_identity` without overrides. -/
def callScript (path : String) (call : IdentityCall) : Script IdentityStore :=
  Script.dyn fun s =>
    match s.file with
    | some contents =>
        Script.cmd fun s =>
          match parseIdentity path contents with
          | .ok identity => some (returnIdentity identity s)
          | .error _ => none
    | none => (writeScript call).seq (Script.act (returnIdentity call.generated))

/-- A call begins. -/
def begin (s : IdentityStore) : IdentityStore := { s with returned := none }

/-- A call is made. -/
def runCall (path : String) (s : IdentityStore) (call : IdentityCall) : IdentityStore :=
  ((callScript path call).run call.commands (begin s)).1

/-- An empty state directory. -/
def noIdentity : IdentityStore := ⟨none, fun _ => none, none⟩

/-- A call that has to make up an identity has no temporary in its way, and its
    random bytes are not all ones. -/
def CanCreate (s : IdentityStore) (call : IdentityCall) : Prop :=
  s.file = none → s.temporary call.pid = none ∧ call.token ≠ List.replicate 5 0xff

/-- What the calls return, one after another. -/
def returnedBy (path : String) : IdentityStore → List IdentityCall →
    List (Option (List Char × List Char))
  | _, [] => []
  | s, call :: rest => (runCall path s call).returned :: returnedBy path (runCall path s call) rest

/-! ### Reading what was written -/

theorem splitLines_line (line rest : List Char) (h : ∀ c ∈ line, isLineEnd c = false) :
    splitLines (line ++ '\n' :: rest) = line :: splitLines rest := by
  induction line with
  | nil =>
      rw [List.nil_append, splitLines, if_pos (by decide)]
      · exact fun _ h => absurd h (by decide)
  | cons c line ih =>
      have hc := h c List.mem_cons_self
      rw [List.cons_append, splitLines, hc, if_neg Bool.false_ne_true,
        ih fun d hd => h d (List.mem_cons_of_mem c hd)]
      · rintro - rfl
        exact absurd hc (by decide)

/-- A character that stands in a line of an ASCII file. -/
def IsLineChar (c : Char) : Prop := c.toNat < 128 ∧ isLineEnd c = false

theorem readAscii_text (text : List Char) (h : ∀ c ∈ text, c.toNat < 128) :
    readAscii (text.map fun c => c.toNat.toUInt8) = .ok text := by
  have hbyte : ∀ c : Char, c.toNat < 128 → c.toNat.toUInt8.toNat = c.toNat := by
    intro c hc
    rw [Nat.toUInt8, UInt8.toNat_ofNat', Nat.mod_eq_of_lt (by omega)]
  have hnone : (text.map fun c => c.toNat.toUInt8).findIdx? (fun c => 128 ≤ c) = none := by
    rw [List.findIdx?_eq_none_iff]
    intro byte hmem
    rcases List.mem_map.mp hmem with ⟨c, hc, rfl⟩
    rw [decide_eq_false_iff_not, UInt8.le_iff_toNat_le, hbyte c (h c hc)]
    exact Nat.not_le.mpr (h c hc)
  rw [readAscii, hnone]
  simp only [List.map_map]
  -- Every character is the one of its byte.
  have hchars : text.map ((fun c : UInt8 => Char.ofNat c.toNat) ∘ fun c => c.toNat.toUInt8) = text := by
    conv_rhs => rw [← List.map_id text]
    refine List.map_congr_left fun c hc => ?_
    rw [Function.comp_apply, hbyte c (h c hc), Char.ofNat_toNat, id]
  rw [hchars]

theorem parseLine_serial (path : String) (values : IdentityValues) (serial : List Char)
    (h : values.serial = none) :
    parseLine path values ("ZD_SERIAL=".toList ++ serial) =
      .ok { values with serial := some serial } := by
  have hkey : ("ZD_SERIAL=".toList ++ serial).takeWhile (· ≠ '=') = "ZD_SERIAL".toList := rfl
  have hvalue : ("ZD_SERIAL=".toList ++ serial).drop 10 = serial := rfl
  have hsep : '=' ∈ "ZD_SERIAL=".toList ++ serial := List.mem_append_left _ (by decide)
  rw [parseLine, hkey]
  simp only [hsep, not_true_eq_false, raiseIf, if_false, h, Option.isSome_none,
    Bool.false_eq_true, if_true]
  exact congrArg (fun value => Except.ok { values with serial := some value }) hvalue

theorem parseLine_mac (path : String) (values : IdentityValues) (mac : List Char)
    (h : values.mac = none) :
    parseLine path values ("ZD_MAC1=".toList ++ mac) = .ok { values with mac := some mac } := by
  have hkey : ("ZD_MAC1=".toList ++ mac).takeWhile (· ≠ '=') = "ZD_MAC1".toList := rfl
  have hvalue : ("ZD_MAC1=".toList ++ mac).drop 8 = mac := rfl
  have hsep : '=' ∈ "ZD_MAC1=".toList ++ mac := List.mem_append_left _ (by decide)
  have hother : ¬ "ZD_MAC1".toList = "ZD_SERIAL".toList := by decide
  rw [parseLine, hkey]
  simp only [hsep, not_true_eq_false, raiseIf, if_false, h, Option.isSome_none,
    Bool.false_eq_true, if_true, hother]
  exact congrArg (fun value => Except.ok { values with mac := some value }) hvalue

/-- The two lines of the file. -/
theorem writeIdentity_lines (serial mac : List Char) :
    writeIdentity serial mac =
      (("ZD_SERIAL=".toList ++ serial) ++ '\n' :: (("ZD_MAC1=".toList ++ mac) ++ ['\n'])).map
        fun c => c.toNat.toUInt8 := by
  have hbreak : "\nZD_MAC1=".toList = '\n' :: "ZD_MAC1=".toList := by decide
  -- The keys stay closed while the lines are put together.
  have hlines : ∀ first second : List Char, first ++ serial ++ ('\n' :: second) ++ mac ++ ['\n'] =
      (first ++ serial) ++ '\n' :: ((second ++ mac) ++ ['\n']) := by
    intro first second
    simp only [List.append_assoc, List.cons_append]
  exact congrArg (List.map _) ((congrArg (fun key => "ZD_SERIAL=".toList ++ serial ++ key ++ mac ++
    ['\n']) hbreak).trans (hlines _ _))

instance (c : Char) : Decidable (IsLineChar c) := inferInstanceAs (Decidable (_ ∧ _))

theorem keys_lineChar :
    (∀ c ∈ "ZD_SERIAL=".toList, IsLineChar c) ∧ ∀ c ∈ "ZD_MAC1=".toList, IsLineChar c := by
  have hall : ∀ key ∈ ["ZD_SERIAL=", "ZD_MAC1="],
      (key.toList.all fun c => decide (IsLineChar c)) = true := by decide +kernel
  exact ⟨fun c hc => of_decide_eq_true (List.all_eq_true.mp (hall _ (by decide)) c hc),
    fun c hc => of_decide_eq_true (List.all_eq_true.mp (hall _ (by decide)) c hc)⟩

/-- A written file is read back, and its values are validated. -/
theorem parseIdentity_writeIdentity (path : String) (serial mac : List Char)
    (hserial : ∀ c ∈ serial, IsLineChar c) (hmac : ∀ c ∈ mac, IsLineChar c) :
    parseIdentity path (writeIdentity serial mac) =
      ((validateSerial serial).bind fun serial => (parseMac mac).bind fun octets =>
        .ok (serial, formatMac octets)) := by
  -- The text is two lines of such characters.
  have hline₁ : ∀ c ∈ "ZD_SERIAL=".toList ++ serial, IsLineChar c := fun c hc =>
    (List.mem_append.mp hc).elim (keys_lineChar.1 c) (hserial c)
  have hline₂ : ∀ c ∈ "ZD_MAC1=".toList ++ mac, IsLineChar c := fun c hc =>
    (List.mem_append.mp hc).elim (keys_lineChar.2 c) (hmac c)
  rw [parseIdentity, writeIdentity_lines, readAscii_text, ok_bind,
    splitLines_line _ _ fun c hc => (hline₁ c hc).2, splitLines_line _ _ fun c hc => (hline₂ c hc).2,
    splitLines, List.foldlM_cons, parseLine_serial path _ serial rfl, ok_bind, List.foldlM_cons,
    parseLine_mac path _ mac rfl, ok_bind, List.foldlM_nil]
  · rfl
  · intro c hc
    rcases List.mem_append.mp hc with hc | hc
    · exact (hline₁ c hc).1
    · rcases List.mem_cons.mp hc with rfl | hc
      · decide
      · rcases List.mem_append.mp hc with hc | hc
        · exact (hline₂ c hc).1
        · rw [List.mem_singleton.mp hc]
          decide

/-! ### What is made up -/

theorem lineChar_digitChar (n : Nat) (h : n < 16) : IsLineChar (Nat.digitChar n) := by
  have hall : ∀ d : Fin 16, IsLineChar (Nat.digitChar d) := by
    unfold IsLineChar
    decide
  exact hall ⟨n, h⟩

theorem lineChar_serial (n : Nat) : ∀ c ∈ serialOfNumber n, IsLineChar c := by
  intro c hc
  rcases List.mem_map.mp hc with ⟨i, -, rfl⟩
  exact lineChar_digitChar _ (by omega)

theorem lineChar_formatMac (mac : Bytes) : ∀ c ∈ formatMac mac, IsLineChar c := by
  have hbyte : ∀ byte : UInt8, ∀ c ∈ hexByte byte, IsLineChar c := by
    intro byte c hc
    have hlt := byte.toNat_lt
    rw [hexByte, List.mem_cons, List.mem_singleton] at hc
    rcases hc with rfl | rfl
    · exact lineChar_digitChar _ (by omega)
    · exact lineChar_digitChar _ (by omega)
  intro c hc
  -- A character is of a byte or a separator.
  rcases mem_intercalate hc with rfl | ⟨part, hpart, hc⟩
  · exact ⟨by decide, by decide⟩
  · rcases List.mem_map.mp hpart with ⟨byte, -, rfl⟩
    exact hbyte byte c hc

/-- A written address is accepted if its successor is usable. -/
theorem parseMac_formatMac (mac : Bytes) (hlength : mac.length = 6) (hlocal : isLocalUnicast mac) :
    parseMac (formatMac mac) =
      if isLocalUnicast (nextMac mac) then .ok mac
      else .error (.valueError "MAC leaves no valid locally administered unicast MAC2") := by
  have hparts : (formatMac mac).splitOn ':' = mac.map hexByte := splitOn_formatMac mac (by
    rintro rfl
    exact absurd hlength (by decide))
  have htwo : (mac.map hexByte).any (fun part => decide (part.length ≠ 2)) = false := by
    rw [List.any_eq_false]
    intro part hpart
    rcases List.mem_map.mp hpart with ⟨byte, -, rfl⟩
    exact Bool.false_ne_true
  unfold parseMac
  simp only [hparts, octetsOf_map_hexByte, htwo, List.length_map, hlength, ne_eq, not_true_eq_false,
    Bool.false_eq_true, or_self, raiseIf_of_not, not_false_eq_true, ok_bind, Except.mapError,
    hlocal]
  by_cases hnext : isLocalUnicast (nextMac mac) = true
  · rw [raiseIf_of_not (not_not.mpr hnext), ok_bind, if_pos hnext]
    rfl
  · rw [raiseIf_of hnext, if_neg hnext]
    rfl

theorem validateSerial_of (serial : List Char) (h : IsSerial serial) :
    validateSerial serial = .ok serial := by
  rw [validateSerial, raiseIf_of_not]
  · rfl
  · rw [not_not, List.all_eq_true]
    exact ⟨h.1, h.2.1, fun c hc => by simpa using h.2.2 c hc⟩

/-- A file with a made-up identity is accepted if the random bytes are not all
    ones. -/
theorem parseIdentity_generated (path : String) (call : IdentityCall) :
    parseIdentity path call.contents =
      if call.token ≠ List.replicate 5 0xff then .ok call.generated
      else .error (.valueError "MAC leaves no valid locally administered unicast MAC2") := by
  have hlength : (0x02 :: call.token).length = 6 := by rw [List.length_cons, call.token_length]
  have hwritten := parseIdentity_writeIdentity path (serialOfNumber call.number)
    (formatMac (0x02 :: call.token)) (lineChar_serial _) (lineChar_formatMac _)
  refine hwritten.trans ?_
  rw [validateSerial_of _ (isSerial_serialOfNumber _), Except.bind,
    parseMac_formatMac _ hlength (show isLocalUnicast (0x02 :: call.token) = true from rfl)]
  by_cases hones : call.token ≠ List.replicate 5 0xff
  · rw [if_pos ((isLocalUnicast_nextMac_iff call.token call.token_length).mpr hones), if_pos hones]
    rfl
  · rw [if_neg fun h => hones ((isLocalUnicast_nextMac_iff call.token call.token_length).mp h),
      if_neg hones]
    rfl

/-! ### A call -/

section Call

variable (path : String) (call : IdentityCall)

/-- The temporary and what is left to write are the contents. -/
def Writing (rest : Bytes) (s : IdentityStore) : Prop :=
  ∃ done, s.temporary call.pid = some done ∧ done ++ rest = call.contents

theorem writing_open (s s' : IdentityStore) (h : openExclusive call.pid s = some s') :
    Writing call call.contents s' ∧ s'.file = s.file ∧ s'.returned = s.returned := by
  unfold openExclusive at h
  split at h
  · exact absurd h (by simp only [reduceCtorEq, not_false_eq_true])
  · rw [← Option.some.inj h]
    exact ⟨⟨[], Function.update_self _ _ _, List.nil_append _⟩, rfl, rfl⟩

theorem writing_append (byte : UInt8) (rest : Bytes) (s : IdentityStore)
    (h : Writing call (byte :: rest) s) : Writing call rest (appendByte call.pid byte s) := by
  rcases h with ⟨done, hdone, hcontents⟩
  refine ⟨done ++ [byte], ?_, ?_⟩
  · simp only [appendByte, Function.update_self, hdone, Option.map_some]
  · rw [List.append_assoc, List.singleton_append, hcontents]

theorem writing_replace (s : IdentityStore) (h : Writing call [] s) :
    (replaceFile call.pid s).file = some call.contents := by
  rcases h with ⟨done, hdone, hcontents⟩
  rw [List.append_nil] at hcontents
  rw [replaceFile, hdone, hcontents]

/-- What `write_identity` leaves, wherever it is killed: no file yet, or the
    complete one. -/
theorem writeScript_triple :
    Triple (fun s => s.file = none ∧ s.returned = none) (writeScript call)
      (fun s => s.file = some call.contents ∧ s.returned = none)
      (fun s => (s.file = none ∨ s.file = some call.contents) ∧ s.returned = none) := by
  let Unfinished (rest : Bytes) (s : IdentityStore) : Prop :=
    s.file = none ∧ s.returned = none ∧ Writing call rest s
  refine Triple.seq (Q := Unfinished call.contents) _ _ ?_ ?_
  · refine Triple.cmd _ (fun s hs => ⟨.inl hs.1, hs.2⟩) fun s s' hs hopen => ?_
    rcases writing_open call s s' hopen with ⟨hwriting, hfile, hreturned⟩
    exact ⟨hfile.trans hs.1, hreturned.trans hs.2, hwriting⟩
  refine Triple.seq (Q := Unfinished []) _ _ ?_ ?_
  · refine Triple.forEach _ _ Unfinished fun byte rest => ?_
    exact Triple.act _ (fun s hs => ⟨.inl hs.1, hs.2.1⟩) fun s hs =>
      ⟨hs.1, hs.2.1, writing_append call byte rest s hs.2.2⟩
  refine Triple.seq (Q := Unfinished []) _ _ ?_ ?_
  · exact Triple.act _ (fun s hs => ⟨.inl hs.1, hs.2.1⟩) fun s hs => hs
  refine Triple.seq (Q := fun s => s.file = some call.contents ∧ s.returned = none) _ _ ?_ ?_
  · exact Triple.act _ (fun s hs => ⟨.inl hs.1, hs.2.1⟩) fun s hs =>
      ⟨writing_replace call s hs.2.2, hs.2.1⟩
  · exact Triple.act _ (fun s hs => ⟨.inr hs.1, hs.2⟩) fun s hs => hs

/-- Without a temporary in its way, `write_identity` succeeds. -/
theorem writeScript_yields :
    Yields (fun s => s.temporary call.pid = none) (writeScript call)
      (fun s => s.file = some call.contents) := by
  refine Yields.seq (Q := Writing call call.contents) _ _ ?_ ?_
  · refine Yields.cmd _ fun s hs => ?_
    have hopen : openExclusive call.pid s =
        some { s with temporary := Function.update s.temporary call.pid (some []) } := by
      rw [openExclusive, hs]
    exact ⟨_, hopen, (writing_open call s _ hopen).1⟩
  refine Yields.seq (Q := Writing call []) _ _ ?_ ?_
  · exact Yields.forEach _ _ (Writing call) fun byte rest =>
      Yields.act _ fun s hs => writing_append call byte rest s hs
  refine Yields.seq (Q := Writing call []) _ _ (Yields.act _ fun s hs => hs) ?_
  exact Yields.seq _ _ (Yields.act _ fun s hs => writing_replace call s hs)
    (Yields.act _ fun s hs => hs)

/-- What a call leaves where there is a file, wherever it is killed. -/
theorem callScript_found (contents : Bytes) :
    Triple (fun s => s.file = some contents ∧ s.returned = none) (callScript path call)
      (fun s => s.file = some contents ∧
        ∃ identity, s.returned = some identity ∧ parseIdentity path contents = .ok identity)
      (fun s => s.file = some contents ∧ s.returned = none) := by
  refine Triple.dyn _ fun s hs => ?_
  rw [hs.1]
  refine Triple.cmd _ (fun t ht => ht ▸ hs) fun t t' ht h => ?_
  subst ht
  split at h
  · next identity hparse =>
      rw [← Option.some.inj h]
      exact ⟨hs.1, identity, rfl, hparse⟩
  · exact absurd h (by simp only [reduceCtorEq, not_false_eq_true])

/-- What a call leaves where there is no file, wherever it is killed. -/
theorem callScript_made :
    Triple (fun s => s.file = none ∧ s.returned = none) (callScript path call)
      (fun s => s.file = some call.contents ∧ s.returned = some call.generated)
      (fun s => (s.file = none ∨ s.file = some call.contents) ∧ s.returned = none) := by
  refine Triple.dyn _ fun s hs => ?_
  rw [hs.1]
  refine Triple.pre _ ?_ (fun t ht => ht ▸ hs)
  exact Triple.seq _ _ (writeScript_triple call)
    (Triple.act _ (fun t ht => ⟨.inr ht.1, ht.2⟩) fun t ht => ⟨ht.1, rfl⟩)

/-- A call that is not killed succeeds if the file that is there is accepted
    and no temporary is in its way. -/
theorem callScript_yields (s : IdentityStore)
    (hfile : ∀ contents, s.file = some contents → ∃ identity, parseIdentity path contents = .ok identity)
    (htemporary : s.file = none → s.temporary call.pid = none) :
    ∃ s' identity, (callScript path call).complete s = some s' ∧ s'.returned = some identity := by
  rw [callScript, Script.complete]
  cases h : s.file with
  | none =>
      rcases writeScript_yields call s (htemporary h) with ⟨t, ht, -⟩
      refine ⟨returnIdentity call.generated t, call.generated, ?_, rfl⟩
      simp only [Script.complete, ht, Option.bind_some]
      rfl
  | some contents =>
      rcases hfile contents h with ⟨identity, hparse⟩
      refine ⟨returnIdentity identity s, identity, ?_, rfl⟩
      simp only [Script.complete, hparse]

/-- A call that is not killed returns and leaves what `resolveIdentity` says. -/
theorem callScript_resolves (s s' : IdentityStore)
    (h : (callScript path call).complete (begin s) = some s') :
    ∃ identity source, s'.returned = some identity ∧
      resolveIdentity (call.env path s.file) [] [] =
        .ok (⟨identity.1, identity.2, source⟩, s'.file) := by
  cases hfile : s.file with
  | none =>
      rcases (callScript_made path call).complete _ (begin s) _ ⟨hfile, rfl⟩ h with ⟨hleft, hreturned⟩
      refine ⟨call.generated, .generated, hreturned, ?_⟩
      rw [hleft]
      rfl
  | some contents =>
      rcases (callScript_found path call contents).complete _ (begin s) _ ⟨hfile, rfl⟩ h with
        ⟨hleft, identity, hreturned, hparse⟩
      refine ⟨identity, .persistentState, hreturned, ?_⟩
      rw [hleft]
      change ((parseIdentity path contents).bind fun read => _) = _
      rw [hparse]
      rfl

/-- What a call leaves, killed or not. -/
theorem runCall_found (s : IdentityStore) (contents : Bytes) (h : s.file = some contents) :
    (runCall path s call).file = some contents ∧
      ∀ identity, (runCall path s call).returned = some identity →
        parseIdentity path contents = .ok identity := by
  have hends := callScript_found path call contents (begin s) ⟨h, rfl⟩ call.commands
  rw [runCall]
  cases hrun : (callScript path call).run call.commands (begin s) with
  | mk s' left =>
      rw [hrun] at hends
      cases left with
      | none =>
          refine ⟨hends.1, fun identity hidentity => ?_⟩
          rw [hends.2] at hidentity
          exact absurd hidentity (by simp only [reduceCtorEq, not_false_eq_true])
      | some left =>
          rcases hends with ⟨hfile, read, hread, hparse⟩
          refine ⟨hfile, fun identity hidentity => ?_⟩
          rw [hread, Option.some.injEq] at hidentity
          rwa [← hidentity]

theorem runCall_made (s : IdentityStore) (h : s.file = none) :
    ((runCall path s call).file = none ∧ (runCall path s call).returned = none) ∨
      ((runCall path s call).file = some call.contents ∧
        ∀ identity, (runCall path s call).returned = some identity → identity = call.generated) := by
  have hends := callScript_made path call (begin s) ⟨h, rfl⟩ call.commands
  rw [runCall]
  cases hrun : (callScript path call).run call.commands (begin s) with
  | mk s' left =>
      rw [hrun] at hends
      cases left with
      | none =>
          rcases hends with ⟨hnone | hcontents, hreturned⟩
          · exact .inl ⟨hnone, hreturned⟩
          · refine .inr ⟨hcontents, fun identity hidentity => ?_⟩
            rw [hreturned] at hidentity
            exact absurd hidentity (by simp only [reduceCtorEq, not_false_eq_true])
      | some left =>
          refine .inr ⟨hends.1, fun identity hidentity => ?_⟩
          rw [hends.2, Option.some.injEq] at hidentity
          exact hidentity.symm

end Call

/-! ### Sequences of calls -/

/-- The file that is there, if there is one, is accepted. -/
def Accepted (path : String) (s : IdentityStore) : Prop :=
  ∀ contents, s.file = some contents → ∃ identity, parseIdentity path contents = .ok identity

theorem runCall_accepted (path : String) (s : IdentityStore) (call : IdentityCall)
    (hs : Accepted path s) (hcreate : CanCreate s call) : Accepted path (runCall path s call) := by
  intro contents hcontents
  cases hfile : s.file with
  | some old =>
      rw [(runCall_found path call s old hfile).1, Option.some.injEq] at hcontents
      exact hs contents (hcontents ▸ hfile)
  | none =>
      rcases runCall_made path call s hfile with ⟨hnone, -⟩ | ⟨hmade, -⟩
      · rw [hnone] at hcontents
        exact absurd hcontents (by simp only [reduceCtorEq, not_false_eq_true])
      · rw [hmade, Option.some.injEq] at hcontents
        refine ⟨call.generated, ?_⟩
        rw [← hcontents, parseIdentity_generated, if_pos (hcreate hfile).2]

/-- The file that is there has no other identity. -/
def Holds (path : String) (identity : List Char × List Char) (s : IdentityStore) : Prop :=
  ∃ contents, s.file = some contents ∧
    ∀ read, parseIdentity path contents = .ok read → read = identity

/-- What a call returns is the identity of the file that it leaves. -/
theorem holds_of_returned (path : String) (s : IdentityStore) (call : IdentityCall)
    (identity : List Char × List Char) (h : (runCall path s call).returned = some identity) :
    Holds path identity (runCall path s call) := by
  cases hfile : s.file with
  | some contents =>
      rcases runCall_found path call s contents hfile with ⟨hleft, hparse⟩
      refine ⟨contents, hleft, fun read hread => ?_⟩
      rw [hparse identity h, Except.ok.injEq] at hread
      exact hread.symm
  | none =>
      rcases runCall_made path call s hfile with ⟨-, hnone⟩ | ⟨hleft, hmade⟩
      · rw [hnone] at h
        exact absurd h (by simp only [reduceCtorEq, not_false_eq_true])
      · refine ⟨call.contents, hleft, fun read hread => ?_⟩
        rw [parseIdentity_generated] at hread
        split at hread
        · rw [Except.ok.injEq] at hread
          rw [← hread, hmade identity h]
        · exact absurd hread (by simp only [reduceCtorEq, not_false_eq_true])

theorem runCall_holds (path : String) (s : IdentityStore) (call : IdentityCall)
    (identity : List Char × List Char) (h : Holds path identity s) :
    Holds path identity (runCall path s call) ∧
      ∀ other, (runCall path s call).returned = some other → other = identity := by
  rcases h with ⟨contents, hfile, hread⟩
  rcases runCall_found path call s contents hfile with ⟨hleft, hparse⟩
  exact ⟨⟨contents, hleft, hread⟩, fun other hother => hread other (hparse other hother)⟩

/-- Calls on a file return its identity or nothing. -/
theorem returnedBy_of_holds (path : String) (identity : List Char × List Char)
    (calls : List IdentityCall) (s : IdentityStore) (h : Holds path identity s) :
    ∀ result ∈ returnedBy path s calls, ∀ other, result = some other → other = identity := by
  induction calls generalizing s with
  | nil => exact fun result hresult => absurd hresult List.not_mem_nil
  | cons call rest ih =>
      rcases runCall_holds path s call identity h with ⟨hnext, hreturned⟩
      intro result hresult other hother
      rcases List.mem_cons.mp hresult with rfl | hlater
      · exact hreturned other hother
      · exact ih _ hnext result hlater other hother

theorem returnedBy_same (path : String) (calls : List IdentityCall) (s : IdentityStore) :
    (returnedBy path s calls).Pairwise fun a b => ∀ x y, a = some x → b = some y → y = x := by
  induction calls generalizing s with
  | nil => exact List.Pairwise.nil
  | cons call rest ih =>
      refine List.pairwise_cons.mpr ⟨fun b hb x y hx hy => ?_, ih _⟩
      exact returnedBy_of_holds path x rest _ (holds_of_returned path s call x hx) b hb y hy

/-- After any calls on one state directory, killed or not, of which none was in
    one of the two ways of failing, a call that is not either succeeds. All
    calls that return an identity return the same one. -/
theorem identity_recovers (path : String) (calls : List IdentityCall) :
    (Meets (runCall path) CanCreate noIdentity calls →
      ∀ call, CanCreate (calls.foldl (runCall path) noIdentity) call →
        ∃ s' identity, (callScript path call).complete
          (begin (calls.foldl (runCall path) noIdentity)) = some s' ∧
            s'.returned = some identity) ∧
    (returnedBy path noIdentity calls).Pairwise fun a b => ∀ x y, a = some x → b = some y → y = x := by
  refine ⟨fun hmeets call hcreate => ?_, returnedBy_same path calls noIdentity⟩
  have haccepted := invariant_of_meets (runCall path) CanCreate (Accepted path)
    (runCall_accepted path) noIdentity calls
    (fun contents h => absurd h (by simp only [noIdentity, reduceCtorEq, not_false_eq_true])) hmeets
  exact callScript_yields path call _ haccepted fun hfile => (hcreate hfile).1

/-- A call that is killed after it has created its temporary. -/
def killedCall : IdentityCall := ⟨7, 1, [1, 2, 3, 4, 5], rfl, 1⟩

/-- A call that is not killed. -/
def wholeCall (pid : Nat) : IdentityCall := ⟨pid, 2, [6, 7, 8, 9, 10], rfl, 100⟩

/-- Process number 7 again finds the temporary of the call that was killed. -/
theorem identity_stuck :
    ¬ ∀ (path : String) (calls : List IdentityCall) (call : IdentityCall), ∃ s', (callScript path call).complete
      (begin (calls.foldl (runCall path) noIdentity)) = some s' := by
  intro h
  rcases h "" [killedCall] (wholeCall 7) with ⟨s', hs'⟩
  have hnone : ((callScript "" (wholeCall 7)).complete
      (begin ([killedCall].foldl (runCall "") noIdentity))).isNone = true := by decide +kernel
  rw [hs'] at hnone
  exact absurd hnone Bool.false_ne_true

theorem identity_recovers_killed :
    ∃ s' identity, (callScript "" (wholeCall 7)).complete
      (begin ([killedCall, wholeCall 8].foldl (runCall "") noIdentity)) = some s' ∧
        s'.returned = some identity := by
  have hfile : (runCall "" (runCall "" noIdentity killedCall) (wholeCall 8)).file ≠ none := by
    decide +kernel
  exact (identity_recovers "" [killedCall, wholeCall 8]).1
    ⟨fun _ => ⟨rfl, by decide⟩, fun _ => ⟨by decide +kernel, by decide⟩, trivial⟩ (wholeCall 7)
    fun hnone => absurd hnone hfile

end Board

end Zd1200
