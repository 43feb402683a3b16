import Zd1200.Patch.Again
import Zd1200.Patch.Catalog

/-!
# The Kernel Container

The kernel to be patched is an ELF inside a gzip member inside a boot image.
`patch_binary_artifact.py` finds the member, decompresses it, patches the
payload, compresses it again and puts it back in the same place, so that
nothing else in the image moves.

Where a member ends is not written anywhere. It is found by searching for the
trailer, the checksum and the length of the payload, and the candidate is
decompressed once more to confirm it. The new member is never longer than the
old one, and what it leaves of the old one's place is filled with zeros.

The launcher runs the same steps on an image that has been through them. It
then finds a shorter member, zeros behind it, and a payload whose rules have
all been applied, and it has to put back what it found: that it does is
`patchContainer_again`.

Decompression and compression are the library's. A `Codec` has them as
functions, and `Codec.Lawful` is what is relied on.

## Main definitions

* `Codec`: The functions of the compression library.
* `Codec.Lawful`: What is relied on.
* `findElfMember`: The member of a boot image that holds the kernel.
* `extractArtifact`, `rebuildArtifact`: Out of the container and back in.
* `patchContainer`: The steps of one run.

## Theorems

* `findElfMember_ok`: What a member that is found looks like.
* `findElfMember_of_first`: A member in front of all others is found.
* `applyRules_patched`: Patched payloads are not changed again.
* `patchContainer_again`: A run on the output of a run returns that output.
-/

namespace Zd1200

/-- The functions of the compression library. `decompress` reads one member
    in gzip format from the front of a byte string; `compress` is
    `gzip.compress` with the arguments it is called with. -/
structure Codec where
  decompress : Bytes → Option Bytes
  compress : Bytes → Bytes
  crc32 : Bytes → Nat

/-- The first three bytes of a member. -/
def gzipMagic : Bytes := [0x1f, 0x8b, 0x08]

/-- The last eight bytes of a payload's member. -/
def Codec.trailer (codec : Codec) (payload : Bytes) : Bytes :=
  leBytes 4 (codec.crc32 payload % 2 ^ 32) ++ leBytes 4 (payload.length % 2 ^ 32)

/-- What is relied on: a member is decoded by its own bytes, compression is
    undone by decompression, and a member has a header of ten bytes that
    begins with the magic and a trailer. -/
structure Codec.Lawful (codec : Codec) : Prop where
  own : ∀ data payload, codec.decompress data = some payload →
    ∃ member rest, data = member ++ rest ∧
      ∀ rest', codec.decompress (member ++ rest') = some payload
  inverse : ∀ payload, codec.decompress (codec.compress payload) = some payload
  magic : ∀ payload, gzipMagic <+: codec.compress payload
  trailer : ∀ payload, codec.trailer payload <:+ codec.compress payload
  header : ∀ payload, 18 ≤ (codec.compress payload).length

/-- The payload begins as a 32-bit ELF. -/
def isElf32 (payload : Bytes) : Bool :=
  [0x7f, 0x45, 0x4c, 0x46].isPrefixOf payload && slice payload 4 5 == [0x01]

/-- The loop of `find_elf_member`. -/
def findElfMemberLoop (codec : Codec) (data : Bytes) :
    Nat → Nat → Except PyError (Nat × Nat × Bytes)
  | 0, _ => .error (.valueError "no gzip member decompresses to a 32-bit ELF")
  | fuel + 1, searchFrom =>
      match findFrom data gzipMagic searchFrom with
      | none => .error (.valueError "no gzip member decompresses to a 32-bit ELF")
      | some memberStart =>
          match codec.decompress (data.drop memberStart) with
          | none => findElfMemberLoop codec data fuel (memberStart + 1)
          | some payload =>
              if isElf32 payload = false then
                findElfMemberLoop codec data fuel (memberStart + 1)
              else
                match findFrom data (codec.trailer payload) (memberStart + 10) with
                | none =>
                    let offset := String.ofList (Nat.toDigits 16 memberStart)
                    .error (.valueError s!"gzip member at 0x{offset} has no matching trailer")
                | some trailerStart =>
                    let memberEnd := trailerStart + (codec.trailer payload).length
                    match codec.decompress (slice data memberStart memberEnd) with
                    | none => .error (.valueError
                        "candidate gzip trailer does not delimit the member")
                    | some confirmed =>
                        if confirmed ≠ payload then .error (.valueError
                          "gzip member changed while locating its trailer")
                        else .ok (memberStart, memberEnd, payload)

/-- The member of a boot image that holds a 32-bit ELF, and its payload. -/
def findElfMember (codec : Codec) (data : Bytes) : Except PyError (Nat × Nat × Bytes) :=
  findElfMemberLoop codec data (data.length + 1) 0

/-- The payload to be patched, and where it was. -/
def extractArtifact (codec : Codec) (artifact : Artifact) (source : Bytes) :
    Except PyError (Bytes × Option (Nat × Nat)) :=
  let artifactId := artifact.artifactId
  let handler := artifact.handler
  if handler = "raw" then .ok (source, none)
  else if handler = "zd1200_bzimage_gzip_elf" then do
    let (start, stop, payload) ← findElfMember codec source
    return (payload, some (start, stop))
  else .error (.valueError (s!"artifact {reprText artifactId.toList} uses " ++
    s!"unknown handler {reprText handler.toList}"))

/-- The container with a patched payload in the old one's place. -/
def rebuildArtifact (codec : Codec) (artifact : Artifact) (source payload : Bytes)
    (context : Option (Nat × Nat)) : Except PyError Bytes :=
  let artifactId := artifact.artifactId
  let handler := artifact.handler
  if handler = "raw" then .ok payload
  else if handler = "zd1200_bzimage_gzip_elf" then
    match context with
    | none => .error (.valueError "missing bzImage member context")
    | some (start, stop) => do
        let memberLen := stop - start
        let member := codec.compress payload
        let length := member.length
        raiseIf (length > memberLen)
          (.valueError (s!"patched payload recompresses to {length} bytes, " ++
            s!"larger than original member ({memberLen})"))
        return source.take start ++ (member ++ List.replicate (memberLen - length) 0) ++
          source.drop stop
  else .error (.valueError (s!"artifact {reprText artifactId.toList} uses " ++
    s!"unknown handler {reprText handler.toList}"))

/-- One run: out of the container, patched, and back in. -/
def patchContainer (codec : Codec) (artifacts : List Artifact) (patches : List PatchRule)
    (artifact : Artifact) (source : Bytes) : Except PyError (Bytes × Bool) := do
  let (payload, context) ← extractArtifact codec artifact source
  let rules ← rulesForArtifact artifacts patches artifact.artifactId
  let (patched, changed) ← applyRules payload rules
  let result ← rebuildArtifact codec artifact source patched context
  return (result, changed)

theorem length_trailer (codec : Codec) (payload : Bytes) :
    (codec.trailer payload).length = 8 := by
  rw [Codec.trailer, List.length_append, length_leBytes, length_leBytes]

theorem trailer_ne_nil (codec : Codec) (payload : Bytes) : codec.trailer payload ≠ [] := by
  rw [← List.length_pos_iff, length_trailer]
  decide

/-- A compressed payload is decoded whatever follows it. -/
theorem Codec.Lawful.decompress_append {codec : Codec} (h : codec.Lawful) (payload rest : Bytes) :
    codec.decompress (codec.compress payload ++ rest) = some payload := by
  rcases h.own _ _ (h.inverse payload) with ⟨member, behind, heq, hall⟩
  rw [heq, List.append_assoc]
  exact hall _

/-- What a member that is found looks like. -/
theorem findElfMemberLoop_ok (codec : Codec) (data : Bytes) (fuel searchFrom : Nat)
    (start stop : Nat) (payload : Bytes)
    (h : findElfMemberLoop codec data fuel searchFrom = .ok (start, stop, payload)) :
    Occurs data gzipMagic start ∧ start + 18 ≤ stop ∧ stop ≤ data.length := by
  induction fuel generalizing searchFrom with
  | zero => exact absurd h (by simp only [findElfMemberLoop, reduceCtorEq, not_false_eq_true])
  | succ fuel ih =>
      rw [findElfMemberLoop] at h
      split at h
      · exact absurd h (by simp only [reduceCtorEq, not_false_eq_true])
      · next memberStart hmagic =>
        split at h
        · exact ih _ h
        · next found _ =>
          split at h
          · exact ih _ h
          · split at h
            · exact absurd h (by simp only [reduceCtorEq, not_false_eq_true])
            · next trailerStart htrailer =>
              simp only at h
              split at h
              · exact absurd h (by simp only [reduceCtorEq, not_false_eq_true])
              · split at h
                · exact absurd h (by simp only [reduceCtorEq, not_false_eq_true])
                · rw [Except.ok.injEq, Prod.mk.injEq, Prod.mk.injEq] at h
                  rcases h with ⟨rfl, rfl, rfl⟩
                  rcases (findFrom_eq_some_iff _ _ _ _ (by decide)).mp hmagic with ⟨-, hocc, -⟩
                  rcases (findFrom_eq_some_iff _ _ _ _ (trailer_ne_nil codec found)).mp htrailer
                    with ⟨hle, htocc, -⟩
                  have hin := List.IsPrefix.length_le htocc
                  rw [length_trailer, List.length_drop] at hin
                  rw [length_trailer]
                  exact ⟨hocc, by omega, by omega⟩

theorem findElfMember_ok (codec : Codec) (data : Bytes) (start stop : Nat) (payload : Bytes)
    (h : findElfMember codec data = .ok (start, stop, payload)) :
    Occurs data gzipMagic start ∧ start + 18 ≤ stop ∧ stop ≤ data.length :=
  findElfMemberLoop_ok codec data _ _ start stop payload h

/-- A member that no magic precedes is found, with its own bytes, whatever
    follows it. -/
theorem findElfMember_of_first (codec : Codec) (hlaw : codec.Lawful) (data payload rest : Bytes)
    (start : Nat) (hdata : data.drop start = codec.compress payload ++ rest)
    (hfirst : ∀ i, i < start → ¬ Occurs data gzipMagic i) (helf : isElf32 payload = true)
    (hlast : ∀ i, Occurs (codec.compress payload) (codec.trailer payload) i →
      i + 8 = (codec.compress payload).length) :
    findElfMember codec data
      = .ok (start, start + (codec.compress payload).length, payload) := by
  have hlen := hlaw.header payload
  have hmagic : findFrom data gzipMagic 0 = some start := by
    rw [findFrom_eq_some_iff _ _ _ _ (by decide)]
    refine ⟨Nat.zero_le _, ?_, fun j _ hj => hfirst j hj⟩
    rw [Occurs, hdata]
    exact (hlaw.magic payload).trans (List.prefix_append _ _)
  -- The first trailer from the end of the header on is the one at the end of the member.
  have htrailer : findFrom data (codec.trailer payload) (start + 10)
      = some (start + ((codec.compress payload).length - 8)) := by
    rw [findFrom_eq_some_iff _ _ _ _ (trailer_ne_nil codec payload)]
    refine ⟨by omega, ?_, fun j hj hlt hocc => ?_⟩
    · rcases hlaw.trailer payload with ⟨body, hbody⟩
      have hblen : (codec.compress payload).length - 8 = body.length := by
        rw [← hbody, List.length_append, length_trailer]
        omega
      rw [Occurs, ← List.drop_drop, hdata, ← hbody, List.append_assoc, hbody, hblen,
        List.drop_left]
      exact List.prefix_append _ _
    · -- An earlier one would lie inside the member.
      have hin : Occurs (codec.compress payload) (codec.trailer payload) (j - start) := by
        rw [Occurs, show j = start + (j - start) by omega, ← List.drop_drop, hdata,
          List.drop_append_of_le_length (by omega)] at hocc
        refine List.prefix_of_prefix_length_le hocc (List.prefix_append _ _) ?_
        rw [length_trailer, List.length_drop]
        omega
      have := hlast _ hin
      omega
  have hslice : slice data (start : Int)
      ((start + ((codec.compress payload).length - 8) + 8 : Nat) : Int)
        = codec.compress payload := by
    have hdlen := congrArg List.length hdata
    rw [List.length_drop, List.length_append] at hdlen
    rw [slice_between _ _ _ (by omega) (by omega), hdata, List.take_append_of_le_length (by omega)]
    exact List.take_of_length_le (by omega)
  rw [findElfMember, findElfMemberLoop, hmagic]
  simp only [hdata, hlaw.decompress_append, helf, Bool.true_eq_false, if_false, htrailer,
    length_trailer, hslice, hlaw.inverse, ne_eq, not_true_eq_false]
  rw [show start + ((codec.compress payload).length - 8) + 8
    = start + (codec.compress payload).length by omega]

/-- A payload that replacement rules have been applied to is left as it is. -/
theorem applyRules_patched (payload patched : Bytes) (rules : List PatchRule) (changed : Bool)
    (hreplace : ∀ rule ∈ rules, rule.replacementHex ≠ none)
    (h : applyRules payload rules = .ok (patched, changed)) :
    applyRules patched rules = .ok (patched, false) := by
  rcases applyRules_cases payload rules patched changed h with
    ⟨resolved, hres, -, -, -, -, hids, hverify⟩
  refine applyRules_of_no_writes patched rules hids (fun rule hrule => ?_) hverify
  rcases mapM_ok_of_mem _ _ _ hres rule hrule with ⟨r, -, hr⟩
  rcases Option.ne_none_iff_exists'.mp (hreplace rule hrule) with ⟨text, htext⟩
  rcases resolveRule_already payload patched rule text htext r hr (hverify rule hrule) with
    ⟨r', hr', hstate⟩
  exact ⟨r', hr', by rw [hstate]; decide⟩

/-- The container keeps its length and everything outside the old member, and
    the new member stands at the old one's start. -/
theorem rebuildArtifact_ok (codec : Codec) (artifact : Artifact)
    (hhandler : artifact.handler = "zd1200_bzimage_gzip_elf") (source payload output : Bytes)
    (start stop : Nat) (hle : start ≤ stop) (hin : stop ≤ source.length)
    (h : rebuildArtifact codec artifact source payload (some (start, stop)) = .ok output) :
    output.length = source.length ∧
      (∀ i, ¬ (start ≤ i ∧ i < stop) → output[i]? = source[i]?) ∧
      ∃ rest, output.drop start = codec.compress payload ++ rest := by
  simp only [rebuildArtifact, hhandler, String.reduceEq, if_false, if_true, bind_ok_iff,
    raiseIf_ok_iff, pure_ok_iff, exists_const] at h
  rcases h with ⟨hfits, rfl⟩
  have hlen : (codec.compress payload ++ List.replicate
      (stop - start - (codec.compress payload).length) (0 : UInt8)).length = stop - start := by
    rw [List.length_append, List.length_replicate]
    omega
  refine ⟨length_replaced source _ start stop hle hin hlen,
    fun i hi => getElem?_replaced source _ start stop i hle hin hlen hi,
    List.replicate (stop - start - (codec.compress payload).length) 0 ++ source.drop stop, ?_⟩
  have htake : (source.take start).length = start := by
    rw [List.length_take]
    omega
  rw [List.append_assoc, List.append_assoc, List.drop_left' htake]

/-- A member that stands alone in its place is put back where it is. -/
theorem rebuildArtifact_same (codec : Codec) (artifact : Artifact)
    (hhandler : artifact.handler = "zd1200_bzimage_gzip_elf") (source payload rest : Bytes)
    (start : Nat) (h : source.drop start = codec.compress payload ++ rest) :
    rebuildArtifact codec artifact source payload
      (some (start, start + (codec.compress payload).length)) = .ok source := by
  simp only [rebuildArtifact, hhandler, String.reduceEq, if_false, if_true, bind_ok_iff,
    raiseIf_ok_iff, pure_ok_iff, exists_const]
  refine ⟨by omega, ?_⟩
  rw [Nat.add_sub_cancel_left, Nat.sub_self, List.replicate_zero, List.append_nil,
    ← List.drop_drop, h, List.drop_left, List.append_assoc, ← h, List.take_append_drop]

/-- A run on the output of a run returns that output: it has kept everything
    outside the old member, the patched payload is found in it again, nothing
    is left to patch, and the new member fits where it is. -/
theorem patchContainer_again (codec : Codec) (hlaw : codec.Lawful) (artifacts : List Artifact)
    (patches rules : List PatchRule) (artifact : Artifact)
    (hhandler : artifact.handler = "zd1200_bzimage_gzip_elf")
    (hrulesFor : rulesForArtifact artifacts patches artifact.artifactId = .ok rules)
    (hreplace : ∀ rule ∈ rules, rule.replacementHex ≠ none)
    (source payload patched output : Bytes) (start stop : Nat) (changed : Bool)
    (hextract : extractArtifact codec artifact source = .ok (payload, some (start, stop)))
    (hrules : applyRules payload rules = .ok (patched, changed))
    (hrebuild : rebuildArtifact codec artifact source patched (some (start, stop)) = .ok output)
    (hfirst : ∀ i, i < start → ¬ Occurs source gzipMagic i) (helf : isElf32 patched = true)
    (hlast : ∀ i, Occurs (codec.compress patched) (codec.trailer patched) i →
      i + 8 = (codec.compress patched).length) :
    output.length = source.length ∧
      (∀ i, ¬ (start ≤ i ∧ i < stop) → output[i]? = source[i]?) ∧
      extractArtifact codec artifact output
        = .ok (patched, some (start, start + (codec.compress patched).length)) ∧
      patchContainer codec artifacts patches artifact output = .ok (output, false) := by
  -- The member of the source.
  have hmember : Occurs source gzipMagic start ∧ start + 18 ≤ stop ∧ stop ≤ source.length := by
    simp only [extractArtifact, hhandler, String.reduceEq, if_false, if_true, bind_ok_iff,
      pure_ok_iff] at hextract
    rcases hextract with ⟨⟨start', stop', payload'⟩, hfind, heq⟩
    rw [Prod.mk.injEq, Option.some.injEq, Prod.mk.injEq] at heq
    rcases heq with ⟨rfl, rfl, rfl⟩
    exact findElfMember_ok codec source _ _ _ hfind
  rcases hmember with ⟨hmagic, hroom, hin⟩
  rcases rebuildArtifact_ok codec artifact hhandler source patched output start stop (by omega) hin
    hrebuild with ⟨hlength, houtside, rest, hdrop⟩
  have hmagic' : Occurs output gzipMagic start := by
    rw [Occurs, hdrop]
    exact (hlaw.magic patched).trans (List.prefix_append _ _)
  -- Where the source has no magic the output has none, also not one that reaches into the member.
  have hnone : ∀ i, i < start → ¬ Occurs output gzipMagic i := by
    intro i hi
    rw [occurs_before_iff output source gzipMagic start i hi
      (fun j hj => houtside j (by omega)) hmagic' hmagic]
    exact hfirst i hi
  have hextract' : extractArtifact codec artifact output
      = .ok (patched, some (start, start + (codec.compress patched).length)) := by
    simp only [extractArtifact, hhandler, String.reduceEq, if_false, if_true, ok_bind,
      findElfMember_of_first codec hlaw output patched rest start hdrop hnone helf hlast]
    rfl
  have hagain := applyRules_patched payload patched rules changed hreplace hrules
  have hrebuild' := rebuildArtifact_same codec artifact hhandler output patched rest start hdrop
  refine ⟨hlength, houtside, hextract', ?_⟩
  simp only [patchContainer, hextract', ok_bind, hrulesFor, hagain, hrebuild']
  rfl

/-! ### A small image -/

/-- One step of the checksum of the format. -/
def crc32Byte (crc : Nat) (b : UInt8) : Nat :=
  (fun c => if c % 2 = 1 then (c / 2) ^^^ 0xedb88320 else c / 2)^[8] (crc ^^^ b.toNat)

/-- The checksum of the format. -/
def crc32 (payload : Bytes) : Nat :=
  payload.foldl crc32Byte 0xffffffff ^^^ 0xffffffff

/-- A payload of eight bytes and its member. -/
def smallPayload : Bytes := [0x7f, 0x45, 0x4c, 0x46, 0x01, 0xaa, 0xbb, 0xcc]

def smallMember : Bytes :=
  gzipMagic ++ [0x00, 0x00, 0x00, 0x00, 0x00, 0x02, 0x03, 0xab, 0x77, 0xf5, 0x71, 0x63, 0x5c, 0xb5,
    0xfb, 0x0c, 0x00, 0x4e, 0x27, 0xf8, 0x50, 0x08, 0x00, 0x00, 0x00]

/-- The payload patched, and its member, which is shorter. -/
def smallPatched : Bytes := [0x7f, 0x45, 0x4c, 0x46, 0x01, 0x01, 0x01, 0x01]

def smallPatchedMember : Bytes :=
  gzipMagic ++ [0x00, 0x00, 0x00, 0x00, 0x00, 0x02, 0x03, 0xab, 0x77, 0xf5, 0x71, 0x63, 0x04, 0x02,
    0x00, 0xf0, 0x6d, 0x2a, 0x7e, 0x08, 0x00, 0x00, 0x00]

/-- A header that no payload above has. -/
def plainHeader : Bytes := gzipMagic ++ [0x80, 0x00, 0x00, 0x00, 0x00, 0x00, 0x00]

/-- Bytes that say where they end. -/
def spell : Bytes → Bytes
  | [] => [0]
  | b :: bs => 1 :: b :: spell bs

def unspell : Bytes → Option (Bytes × Bytes)
  | 0 :: rest => some ([], rest)
  | 1 :: b :: rest => (unspell rest).map fun (bs, behind) => (b :: bs, behind)
  | _ => none

/-- The library on the two payloads above; every other payload is spelled. -/
def smallCodec : Codec where
  crc32 := crc32
  compress := fun payload =>
    if payload = smallPayload then smallMember
    else if payload = smallPatched then smallPatchedMember
    else plainHeader ++ spell payload ++
      (leBytes 4 (crc32 payload % 2 ^ 32) ++ leBytes 4 (payload.length % 2 ^ 32))
  decompress := fun data =>
    if smallMember.isPrefixOf data then some smallPayload
    else if smallPatchedMember.isPrefixOf data then some smallPatched
    else if plainHeader.isPrefixOf data then
      match unspell (data.drop plainHeader.length) with
      | none => none
      | some (payload, rest) =>
          if (leBytes 4 (crc32 payload % 2 ^ 32) ++
            leBytes 4 (payload.length % 2 ^ 32)).isPrefixOf rest then some payload
          else none
    else none

theorem unspell_spell (payload rest : Bytes) :
    unspell (spell payload ++ rest) = some (payload, rest) := by
  induction payload with
  | nil => rfl
  | cons b bs ih =>
      change (unspell (spell bs ++ rest)).map _ = _
      rw [ih]
      rfl

theorem spell_of_unspell (data payload rest : Bytes) (h : unspell data = some (payload, rest)) :
    data = spell payload ++ rest := by
  induction data using unspell.induct generalizing payload with
  | case1 behind =>
      rw [unspell, Option.some.injEq, Prod.mk.injEq] at h
      rcases h with ⟨rfl, rfl⟩
      rfl
  | case2 b behind ih =>
      rw [unspell, Option.map_eq_some_iff] at h
      rcases h with ⟨⟨bs, behind'⟩, hrec, heq⟩
      rw [Prod.mk.injEq] at heq
      rcases heq with ⟨rfl, rfl⟩
      rw [ih bs hrec]
      rfl
  | case3 data h0 h1 =>
      unfold unspell at h
      split at h
      · next behind => exact absurd rfl (h0 behind)
      · next b behind => exact absurd rfl (h1 b behind)
      · exact absurd h (by simp only [reduceCtorEq, not_false_eq_true])

/-- Of two byte strings neither of which begins with the other, one is not
    found in front of what begins with the other. -/
theorem not_prefix_append (xs ys rest : Bytes) (h : ¬ xs <+: ys) (h' : ¬ ys <+: xs) :
    ¬ xs <+: ys ++ rest := fun hc =>
  (List.prefix_or_prefix_of_prefix hc (List.prefix_append ys rest)).elim h h'

/-- What `smallCodec` makes of bytes that begin like none of the two members. -/
theorem smallCodec_plain (payload rest : Bytes) :
    smallCodec.decompress (plainHeader ++ spell payload ++ smallCodec.trailer payload ++ rest)
      = some payload := by
  have hsmall : ¬ smallMember <+: plainHeader ++ (spell payload ++
      (smallCodec.trailer payload ++ rest)) :=
    not_prefix_append _ _ _ (by decide) (by decide)
  have hpatched : ¬ smallPatchedMember <+: plainHeader ++ (spell payload ++
      (smallCodec.trailer payload ++ rest)) :=
    not_prefix_append _ _ _ (by decide) (by decide)
  rw [← List.isPrefixOf_iff_prefix] at hsmall hpatched
  rw [List.append_assoc, List.append_assoc]
  simp only [smallCodec] at hsmall hpatched ⊢
  rw [if_neg hsmall, if_neg hpatched, if_pos (List.isPrefixOf_iff_prefix.mpr
    (List.prefix_append _ _)), List.drop_left, unspell_spell]
  exact if_pos (List.isPrefixOf_iff_prefix.mpr (List.prefix_append _ _))

theorem smallCodec_own (data payload : Bytes) (h : smallCodec.decompress data = some payload) :
    ∃ member rest, data = member ++ rest ∧
      ∀ rest', smallCodec.decompress (member ++ rest') = some payload := by
  have hsmall : ∀ rest, smallCodec.decompress (smallMember ++ rest) = some smallPayload := by
    intro rest
    simp only [smallCodec]
    exact if_pos (List.isPrefixOf_iff_prefix.mpr (List.prefix_append _ _))
  have hpatched : ∀ rest, smallCodec.decompress (smallPatchedMember ++ rest)
      = some smallPatched := by
    intro rest
    have hnot : ¬ smallMember <+: smallPatchedMember ++ rest :=
      not_prefix_append _ _ _ (by decide) (by decide)
    rw [← List.isPrefixOf_iff_prefix] at hnot
    simp only [smallCodec]
    rw [if_neg hnot]
    exact if_pos (List.isPrefixOf_iff_prefix.mpr (List.prefix_append _ _))
  simp only [smallCodec] at h
  split at h
  · next hp =>
    rcases List.isPrefixOf_iff_prefix.mp hp with ⟨rest, rfl⟩
    rw [← Option.some.inj h]
    exact ⟨_, rest, rfl, hsmall⟩
  · split at h
    · next hp =>
      rcases List.isPrefixOf_iff_prefix.mp hp with ⟨rest, rfl⟩
      rw [← Option.some.inj h]
      exact ⟨_, rest, rfl, hpatched⟩
    · split at h
      · next hp =>
        rcases List.isPrefixOf_iff_prefix.mp hp with ⟨body, rfl⟩
        rw [List.drop_left] at h
        split at h
        · exact absurd h (by simp only [reduceCtorEq, not_false_eq_true])
        · next found behind hspell =>
          split at h
          · next ht =>
            rw [Option.some.injEq] at h
            subst h
            rcases List.isPrefixOf_iff_prefix.mp ht with ⟨rest, rfl⟩
            refine ⟨plainHeader ++ spell found ++ smallCodec.trailer found, rest, ?_,
              smallCodec_plain found⟩
            rw [spell_of_unspell _ _ _ hspell, List.append_assoc, List.append_assoc]
            rfl
          · exact absurd h (by simp only [reduceCtorEq, not_false_eq_true])
      · exact absurd h (by simp only [reduceCtorEq, not_false_eq_true])

theorem trailer_smallPayload :
    smallCodec.trailer smallPayload = [0x4e, 0x27, 0xf8, 0x50, 0x08, 0x00, 0x00, 0x00] := by
  decide +kernel

theorem trailer_smallPatched :
    smallCodec.trailer smallPatched = [0xf0, 0x6d, 0x2a, 0x7e, 0x08, 0x00, 0x00, 0x00] := by
  decide +kernel

theorem smallCodec_lawful : smallCodec.Lawful := by
  -- What a payload is compressed to, in the three cases.
  have hcases : ∀ payload,
      (payload = smallPayload ∧ smallCodec.compress payload = smallMember) ∨
      (payload = smallPatched ∧ smallCodec.compress payload = smallPatchedMember) ∨
      smallCodec.compress payload
        = plainHeader ++ spell payload ++ smallCodec.trailer payload := by
    intro payload
    by_cases hsmall : payload = smallPayload
    · exact .inl ⟨hsmall, if_pos hsmall⟩
    · by_cases hpatched : payload = smallPatched
      · exact .inr (.inl ⟨hpatched, by
          simp only [smallCodec]
          rw [if_neg hsmall, if_pos hpatched]⟩)
      · exact .inr (.inr (by
          simp only [smallCodec]
          rw [if_neg hsmall, if_neg hpatched]
          rfl))
  refine ⟨smallCodec_own, fun payload => ?_, fun payload => ?_, fun payload => ?_,
    fun payload => ?_⟩
  all_goals rcases hcases payload with ⟨rfl, h⟩ | ⟨rfl, h⟩ | h
  all_goals rw [h]
  · decide
  · decide
  · rw [← List.append_nil (plainHeader ++ _ ++ _)]
    exact smallCodec_plain payload []
  · decide
  · decide
  · rw [List.append_assoc]
    exact (show gzipMagic <+: plainHeader by decide).trans (List.prefix_append _ _)
  · rw [trailer_smallPayload]
    decide
  · rw [trailer_smallPatched]
    decide
  · exact List.suffix_append _ _
  · decide
  · decide
  · have hheader : plainHeader.length = 10 := rfl
    rw [List.length_append, List.length_append, length_trailer, hheader]
    omega

/-- An image with a prefix and a suffix whose member becomes shorter. -/
theorem patchContainer_again_small :
    patchContainer smallCodec [⟨"kernel", "kernel", "zd1200_bzimage_gzip_elf"⟩]
        [⟨"kernel", "skip", "01 aa bb cc", 1, "aa bb cc", some "01 01 01", "skip a check", 0⟩]
        ⟨"kernel", "kernel", "zd1200_bzimage_gzip_elf"⟩
        ([0x4d, 0x5a] ++ (smallPatchedMember ++ [0, 0]) ++ [0xfe, 0xff])
      = .ok ([0x4d, 0x5a] ++ (smallPatchedMember ++ [0, 0]) ++ [0xfe, 0xff], false) :=
  (patchContainer_again smallCodec smallCodec_lawful
    [⟨"kernel", "kernel", "zd1200_bzimage_gzip_elf"⟩]
    [⟨"kernel", "skip", "01 aa bb cc", 1, "aa bb cc", some "01 01 01", "skip a check", 0⟩]
    [⟨"kernel", "skip", "01 aa bb cc", 1, "aa bb cc", some "01 01 01", "skip a check", 0⟩]
    ⟨"kernel", "kernel", "zd1200_bzimage_gzip_elf"⟩ rfl (by decide) (by decide)
    ([0x4d, 0x5a] ++ smallMember ++ [0xfe, 0xff]) smallPayload smallPatched
    ([0x4d, 0x5a] ++ (smallPatchedMember ++ [0, 0]) ++ [0xfe, 0xff]) 2 30 true (by decide +kernel)
    (by decide) (by decide) (by unfold Occurs; decide) (by decide) (fun i hi => by
      rw [trailer_smallPatched] at hi
      have hall : ∀ i < 26, [0xf0, 0x6d, 0x2a, 0x7e, 0x08, 0x00, 0x00, 0x00] <+:
          smallPatchedMember.drop i → i + 8 = 26 := by decide
      exact hall i (hi.lt (by decide)) hi)).2.2.2

end Zd1200
