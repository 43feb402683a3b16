import Zd1200.Host.Signature
import Zd1200.Lib.Redirect

/-!
# The Cache of the Runtime Initramfs

The script `make-runtime-initrd.sh`, which keeps the image it built and the
signature of what it was built from in two files.

An invocation that finds an image and its own signature in the stamp takes the
image as it is. Otherwise it builds one, moves it into place, and then writes
the stamp. Between these two commands the old stamp is beside the new image. If
the script is stopped there, and the next invocation has the options of the old
stamp again, it takes an image that was built with other ones.

So the cache is fresh as long as nothing is stopped at that place over a
complete stamp. A stamp that was not written to its end is never the signature
of anything.

The two files and the one that is moved have paths that are made of the path of
the output, which is an option too. An output may be put where another one has
its stamp, and then it is taken for a stamp, or the stamp for an image. So what
an invocation writes is told apart by its path only, and `PathsApart` says that
no path of a run leads to another part's file. Where a path leads is a
parameter, since directories may be links. Invocations that agree on the path
of the output are apart by the endings of the paths (`pathsApart_of_one`).
Files that are made under `/tmp` and removed are left out.

## Main definitions

* `stampPath`, `temporaryPath`: The paths beside that of the output.
* `InitrdEvent`: An invocation that may be killed.
* `makeRuntimeInitrd`: The script.
* `BuiltFrom`: The output is that of an invocation.
* `TornPublication`: Stopped between the image and the stamp.
* `PathsApart`: No path leads to another part's file.

## Theorems

* `pathsApart_of_one`: The paths of one output are apart.
* `run_cases`: What an invocation comes to.
* `ends_publication`: What it leaves if it builds an image.
* `isCached_builtFrom`: A cached image is the one that would be built.
* `initrdCache_fresh`: Sequences of invocations.
* `initrdCache_stale`: An invocation that is stopped at that place.
-/

namespace Zd1200

open Script

/-- `stamp`. -/
def stampPath (path : Bytes) : Bytes := path ++ ascii ".sha256"

/-- `temporary`. -/
def temporaryPath (path : Bytes) (pid : Nat) : Bytes := path ++ ascii ".tmp." ++ decimalText pid

/-- An invocation, its process, what is in the archive beyond the files, and
    after how many commands it is killed. -/
structure InitrdEvent where
  inv : Invocation
  pid : Nat
  nonce : Nat
  steps : Nat

section Cache

variable {κ : Type} [DecidableEq κ] (locate : Bytes → κ) (workDir : Bytes) (tools : InitrdTools)

/-- Where the path of the output leads. -/
def outputFile (inv : Invocation) : κ := locate (outputPath workDir inv)

/-- Where the path of the stamp leads. -/
def stampFile (inv : Invocation) : κ := locate (stampPath (outputPath workDir inv))

/-- Where the path of the temporary file leads. -/
def temporaryFile (e : InitrdEvent) : κ := locate (temporaryPath (outputPath workDir e.inv) e.pid)

/-- The checks in front of the signature. -/
def checkedSettings (inv : Invocation) : Option Settings :=
  (settings workDir tools inv).bind fun s =>
    if (inv.file (baseInitrd workDir inv)).isSome = true ∧
        (inv.file (rootfsArchive workDir inv)).isSome = true then some s
    else none

/-- `signature`. -/
def signature (inv : Invocation) (s : Settings) : Bytes :=
  tools.digest (signatureText workDir tools inv s)

/-- The image is there and the stamp has the signature. -/
def isCached (output stamp : κ) (sig : Bytes) (files : Files κ UInt8) : Bool :=
  (files.lookup output).any (fun image => image ≠ []) &&
    (files.lookup stamp).any fun text => commandOutput text = sig

/-- The image is written and moved to its place. -/
def publishImage (temporary output : κ) (image : Bytes) : Script (Files κ UInt8) :=
  (redirect temporary image).seq (Script.cmd (moveFile temporary output))

/-- The script. -/
def makeRuntimeInitrd (e : InitrdEvent) : Script (Files κ UInt8) :=
  match checkedSettings workDir tools e.inv with
  | none => Script.cmd fun _ => none
  | some s =>
      let output := outputFile locate workDir e.inv
      let stamp := stampFile locate workDir e.inv
      let sig := signature workDir tools e.inv s
      Script.dyn fun files =>
        if isCached output stamp sig files then Script.skip
        else
          match initrdImage workDir tools e.inv s e.nonce with
          | none => Script.cmd fun _ => none
          | some image =>
              (publishImage (temporaryFile locate workDir e) output image).seq
                (redirect stamp (sig ++ [10]))

/-- The files after an invocation. -/
def initrdStep (files : Files κ UInt8) (e : InitrdEvent) : Files κ UInt8 :=
  ((makeRuntimeInitrd locate workDir tools e).run e.steps files).1

/-- The invocation exits with success. -/
def exitsZero (files : Files κ UInt8) (e : InitrdEvent) : Bool :=
  ((makeRuntimeInitrd locate workDir tools e).run e.steps files).2.isSome

/-- The output is an image that an invocation builds. -/
def BuiltFrom (inv : Invocation) (files : Files κ UInt8) : Prop :=
  ∃ s, checkedSettings workDir tools inv = some s ∧
    ∃ nonce image, initrdImage workDir tools inv s nonce = some image ∧
      files.lookup (outputFile locate workDir inv) = some image

/-- An invocation that exits with success leaves its own output. -/
def FreshOutput (files : Files κ UInt8) (e : InitrdEvent) : Prop :=
  exitsZero locate workDir tools files e = true →
    BuiltFrom locate workDir tools e.inv (initrdStep locate workDir tools files e)

/-- The image that an invocation builds, if it builds one. -/
def freshImage (files : Files κ UInt8) (e : InitrdEvent) : Option Bytes :=
  (checkedSettings workDir tools e.inv).bind fun s =>
    if isCached (outputFile locate workDir e.inv) (stampFile locate workDir e.inv)
        (signature workDir tools e.inv s) files then none
    else initrdImage workDir tools e.inv s e.nonce

/-- A stamp that was written to its end is there. -/
def hasStamp (stamp : κ) (files : Files κ UInt8) : Bool :=
  (files.lookup stamp).any fun text => 64 ≤ text.length

/-- The invocation is stopped where its image is in its place, and the stamp of
    the old one still there. -/
def TornPublication (files : Files κ UInt8) (e : InitrdEvent) : Prop :=
  hasStamp (stampFile locate workDir e.inv) files = true ∧
    ∃ image ∈ freshImage locate workDir tools files e,
      ((publishImage (temporaryFile locate workDir e) (outputFile locate workDir e.inv) image).run
        e.steps files).2 = some 0

instance (files : Files κ UInt8) (e : InitrdEvent) :
    Decidable (TornPublication locate workDir tools files e) :=
  inferInstanceAs (Decidable (_ ∧ _))

/-- No path leads to another part's file: an output is never where a stamp is,
    a temporary file neither where an output nor where a stamp is, and outputs
    are in one place exactly if their stamps are. -/
structure PathsApart (events : List InitrdEvent) : Prop where
  stamp : ∀ e ∈ events, ∀ f ∈ events,
    stampFile locate workDir e.inv ≠ outputFile locate workDir f.inv
  temporaryOutput : ∀ e ∈ events, ∀ f ∈ events,
    temporaryFile locate workDir e ≠ outputFile locate workDir f.inv
  temporaryStamp : ∀ e ∈ events, ∀ f ∈ events,
    temporaryFile locate workDir e ≠ stampFile locate workDir f.inv
  same : ∀ e ∈ events, ∀ f ∈ events,
    outputFile locate workDir e.inv = outputFile locate workDir f.inv ↔
      stampFile locate workDir e.inv = stampFile locate workDir f.inv

/-! ### The paths -/

/-- The endings tell the paths of one output apart. -/
theorem paths_ne (path : Bytes) (pid : Nat) :
    stampPath path ≠ path ∧ temporaryPath path pid ≠ path ∧
      temporaryPath path pid ≠ stampPath path := by
  have hstamp : (ascii ".sha256").length = 7 := by decide
  have htmp : (ascii ".tmp.").length = 5 := by decide
  refine ⟨fun h => ?_, fun h => ?_, fun h => ?_⟩
  · have hlen := congrArg List.length h
    rw [stampPath, List.length_append] at hlen
    omega
  · have hlen := congrArg List.length h
    rw [temporaryPath, List.length_append, List.length_append] at hlen
    omega
  · -- The first letter behind the point differs.
    rw [temporaryPath, stampPath, List.append_assoc, List.append_cancel_left_eq] at h
    exact absurd (congrArg (fun text => text[1]?) h) (by
      rw [List.getElem?_append_left (by decide)]
      decide)

/-- The stamp tells the output. -/
theorem stampPath_injective : Function.Injective stampPath := fun _ _ h =>
  List.append_cancel_right h

omit [DecidableEq κ] in
/-- Where invocations agree on the output, and paths lead to different files,
    nothing is in another part's place. -/
theorem pathsApart_of_one (hlocate : Function.Injective locate) (events : List InitrdEvent)
    (path : Bytes) (hpath : ∀ e ∈ events, outputPath workDir e.inv = path) :
    PathsApart locate workDir events where
  stamp e he f hf h := by
    rw [stampFile, outputFile, hpath e he, hpath f hf] at h
    exact (paths_ne path 0).1 (hlocate h)
  temporaryOutput e he f hf h := by
    rw [temporaryFile, outputFile, hpath e he, hpath f hf] at h
    exact (paths_ne path e.pid).2.1 (hlocate h)
  temporaryStamp e he f hf h := by
    rw [temporaryFile, stampFile, hpath e he, hpath f hf] at h
    exact (paths_ne path e.pid).2.2 (hlocate h)
  same e he f hf := by
    rw [outputFile, outputFile, stampFile, stampFile, hlocate.eq_iff, hlocate.eq_iff,
      stampPath_injective.eq_iff]

/-! ### One invocation -/

/-- An invocation that finds its own stamp takes the image. -/
theorem run_cached {locate : Bytes → κ} {workDir : Bytes} {tools : InitrdTools}
    {files : Files κ UInt8} {e : InitrdEvent} {s : Settings}
    (hs : checkedSettings workDir tools e.inv = some s)
    (hcached : isCached (outputFile locate workDir e.inv) (stampFile locate workDir e.inv)
      (signature workDir tools e.inv s) files = true) :
    (makeRuntimeInitrd locate workDir tools e).run e.steps files = (files, some e.steps) := by
  unfold makeRuntimeInitrd
  simp only [hs, Script.run, hcached, if_true]

/-- What an invocation comes to: nothing, the cached image, or a new one. -/
theorem run_cases (files : Files κ UInt8) (e : InitrdEvent) :
    (makeRuntimeInitrd locate workDir tools e).run e.steps files = (files, none) ∨
    ∃ s, checkedSettings workDir tools e.inv = some s ∧
      ((isCached (outputFile locate workDir e.inv) (stampFile locate workDir e.inv)
            (signature workDir tools e.inv s) files = true ∧
          (makeRuntimeInitrd locate workDir tools e).run e.steps files = (files, some e.steps)) ∨
        ∃ image, initrdImage workDir tools e.inv s e.nonce = some image ∧
          freshImage locate workDir tools files e = some image ∧
          (makeRuntimeInitrd locate workDir tools e).run e.steps files =
            ((publishImage (temporaryFile locate workDir e) (outputFile locate workDir e.inv)
              image).seq (redirect (stampFile locate workDir e.inv)
                (signature workDir tools e.inv s ++ [10]))).run e.steps files) := by
  rcases hs : checkedSettings workDir tools e.inv with _ | s
  · refine Or.inl ?_
    unfold makeRuntimeInitrd
    rw [hs]
    exact run_failing _ _
  · rcases hcached : isCached (outputFile locate workDir e.inv) (stampFile locate workDir e.inv)
      (signature workDir tools e.inv s) files with _ | _
    · rcases himage : initrdImage workDir tools e.inv s e.nonce with _ | image
      · refine Or.inl ?_
        unfold makeRuntimeInitrd
        simp only [hs, Script.run, hcached, Bool.false_eq_true, if_false, himage]
        exact run_failing _ _
      · refine Or.inr ⟨s, rfl, Or.inr ⟨image, himage, ?_, ?_⟩⟩
        · rw [freshImage, hs, Option.bind_some, hcached, if_neg Bool.false_ne_true, himage]
        · unfold makeRuntimeInitrd
          rw [hs]
          simp only [Script.run, hcached, Bool.false_eq_true, if_false, himage]
    · exact Or.inr ⟨s, rfl, Or.inl ⟨hcached, run_cached hs hcached⟩⟩

/-- A stamp that is complete is beside an image of an invocation with that
    signature. -/
def StampsHold (events : List InitrdEvent) (files : Files κ UInt8) : Prop :=
  ∀ f ∈ events, ∀ text, files.lookup (stampFile locate workDir f.inv) = some text →
    64 ≤ text.length →
    ∃ e ∈ events, ∃ s, checkedSettings workDir tools e.inv = some s ∧
      text <+: signature workDir tools e.inv s ++ [10] ∧
      ∃ nonce image, initrdImage workDir tools e.inv s nonce = some image ∧
        files.lookup (outputFile locate workDir f.inv) = some image

/-- Files with the same stamps and outputs. -/
def SameParts (events : List InitrdEvent) (files files' : Files κ UInt8) : Prop :=
  ∀ f ∈ events,
    files'.lookup (stampFile locate workDir f.inv) =
        files.lookup (stampFile locate workDir f.inv) ∧
      files'.lookup (outputFile locate workDir f.inv) =
        files.lookup (outputFile locate workDir f.inv)

/-- A new image in its place, and the stamps and the other outputs as they
    were. -/
structure ImagePlaced (events : List InitrdEvent) (output : κ) (image : Bytes)
    (files files' : Files κ UInt8) : Prop where
  placed : files'.lookup output = some image
  stamps : ∀ f ∈ events, files'.lookup (stampFile locate workDir f.inv) =
    files.lookup (stampFile locate workDir f.inv)
  others : ∀ f ∈ events, outputFile locate workDir f.inv ≠ output →
    files'.lookup (outputFile locate workDir f.inv) =
      files.lookup (outputFile locate workDir f.inv)

variable {locate workDir tools} {events : List InitrdEvent}

theorem StampsHold.congr {files files' : Files κ UInt8}
    (h : StampsHold locate workDir tools events files)
    (hsame : SameParts locate workDir events files files') :
    StampsHold locate workDir tools events files' := by
  intro f hf text htext hlen
  rw [(hsame f hf).1] at htext
  rw [(hsame f hf).2]
  exact h f hf text htext hlen

/-- Until the image is moved there is nothing new. -/
theorem triple_publishImage (hpaths : PathsApart locate workDir events) {e : InitrdEvent}
    (he : e ∈ events) (image : Bytes) (files : Files κ UInt8) :
    Triple (fun t => t = files)
      (publishImage (temporaryFile locate workDir e) (outputFile locate workDir e.inv) image)
      (ImagePlaced locate workDir events (outputFile locate workDir e.inv) image files)
      (SameParts locate workDir events files) := by
  have hinsert : ∀ part, SameParts locate workDir events files
      (files.insert (temporaryFile locate workDir e) part) := fun part f hf =>
    ⟨AList.lookup_insert_ne (hpaths.temporaryStamp e he f hf).symm,
      AList.lookup_insert_ne (hpaths.temporaryOutput e he f hf).symm⟩
  refine Triple.seq _ _
    (Triple.redirect (Q := fun t => t = files.insert (temporaryFile locate workDir e) image) _ _
      ?_ ?_ ?_)
    (Triple.cmd _ ?_ ?_)
  · rintro t rfl f -
    exact ⟨rfl, rfl⟩
  · rintro t rfl part -
    exact hinsert part
  · rintro t rfl
    rfl
  · rintro t rfl
    exact hinsert image
  · rintro t t' rfl hmove
    rcases lookup_moveFile _ _ (hpaths.temporaryOutput e he e he) _ _ hmove with
      ⟨houtput, -, hothers⟩
    refine ⟨by rw [houtput, AList.lookup_insert], fun f hf => ?_, fun f hf hother => ?_⟩
    · rw [hothers _ (hpaths.temporaryStamp e he f hf).symm (hpaths.stamp f hf e he)]
      exact (hinsert image f hf).1
    · rw [hothers _ (hpaths.temporaryOutput e he f hf).symm hother]
      exact (hinsert image f hf).2

/-- Without a complete stamp a new image does no harm. -/
theorem ImagePlaced.stampsHold (hpaths : PathsApart locate workDir events) {e : InitrdEvent}
    (he : e ∈ events) {image : Bytes} {files files' : Files κ UInt8}
    (h : ImagePlaced locate workDir events (outputFile locate workDir e.inv) image files files')
    (hfiles : StampsHold locate workDir tools events files)
    (hstamp : hasStamp (stampFile locate workDir e.inv) files = false) :
    StampsHold locate workDir tools events files' := by
  intro f hf text htext hlen
  rw [h.stamps f hf] at htext
  by_cases hother : outputFile locate workDir f.inv = outputFile locate workDir e.inv
  · rw [(hpaths.same f hf e he).mp hother] at htext
    unfold hasStamp at hstamp
    rw [htext, Option.any_some] at hstamp
    exact absurd hlen (of_decide_eq_false hstamp)
  · rw [h.others f hf hother]
    exact hfiles f hf text htext hlen

/-- A stamp beside its image, as far as it is written. -/
theorem ImagePlaced.stamped (hpaths : PathsApart locate workDir events) {e : InitrdEvent}
    (he : e ∈ events) {image : Bytes} {files files' : Files κ UInt8}
    (h : ImagePlaced locate workDir events (outputFile locate workDir e.inv) image files files')
    (hfiles : StampsHold locate workDir tools events files) {s : Settings}
    (hs : checkedSettings workDir tools e.inv = some s)
    (himage : initrdImage workDir tools e.inv s e.nonce = some image) (part : Bytes)
    (hpart : part <+: signature workDir tools e.inv s ++ [10]) :
    StampsHold locate workDir tools events
      (files'.insert (stampFile locate workDir e.inv) part) := by
  intro f hf text htext hlen
  rw [AList.lookup_insert_ne (hpaths.stamp e he f hf).symm]
  by_cases hother : stampFile locate workDir f.inv = stampFile locate workDir e.inv
  · rw [hother, AList.lookup_insert, Option.some.injEq] at htext
    rw [(hpaths.same f hf e he).mpr hother]
    exact ⟨e, he, s, hs, htext ▸ hpart, e.nonce, image, himage, h.placed⟩
  · rw [AList.lookup_insert_ne hother, h.stamps f hf] at htext
    rw [h.others f hf fun hsame => hother ((hpaths.same f hf e he).mp hsame)]
    exact hfiles f hf text htext hlen

/-- What an invocation leaves if it builds an image, unless it is stopped where
    it must not. -/
theorem ends_publication (hpaths : PathsApart locate workDir events) {files : Files κ UInt8}
    (hfiles : StampsHold locate workDir tools events files) {e : InitrdEvent} (he : e ∈ events)
    {s : Settings} (hs : checkedSettings workDir tools e.inv = some s) {image : Bytes}
    (himage : initrdImage workDir tools e.inv s e.nonce = some image)
    (hfresh : freshImage locate workDir tools files e = some image)
    (hnot : ¬ TornPublication locate workDir tools files e) :
    Ends (fun t => StampsHold locate workDir tools events t ∧ BuiltFrom locate workDir tools e.inv t)
      (StampsHold locate workDir tools events)
      (((publishImage (temporaryFile locate workDir e) (outputFile locate workDir e.inv) image).seq
        (redirect (stampFile locate workDir e.inv)
          (signature workDir tools e.inv s ++ [10]))).run e.steps files) := by
  have hpublish : Triple (fun t => t = files)
      (publishImage (temporaryFile locate workDir e) (outputFile locate workDir e.inv) image)
      (ImagePlaced locate workDir events (outputFile locate workDir e.inv) image files)
      (StampsHold locate workDir tools events) :=
    (triple_publishImage hpaths he _ _).weaken _ (fun _ h => h) (fun _ h => h)
      fun _ h => hfiles.congr h
  have hpart : ∀ t, ImagePlaced locate workDir events (outputFile locate workDir e.inv) image files t →
      ∀ part, part <+: signature workDir tools e.inv s ++ [10] →
      StampsHold locate workDir tools events (t.insert (stampFile locate workDir e.inv) part) :=
    fun t ht part hpre => ht.stamped hpaths he hfiles hs himage part hpre
  have hdone : ∀ t, ImagePlaced locate workDir events (outputFile locate workDir e.inv) image files t →
      StampsHold locate workDir tools events (t.insert (stampFile locate workDir e.inv)
          (signature workDir tools e.inv s ++ [10])) ∧
        BuiltFrom locate workDir tools e.inv (t.insert (stampFile locate workDir e.inv)
          (signature workDir tools e.inv s ++ [10])) := by
    intro t ht
    refine ⟨hpart t ht _ (List.prefix_refl _), s, hs, e.nonce, image, himage, ?_⟩
    rw [AList.lookup_insert_ne (hpaths.stamp e he e he).symm]
    exact ht.placed
  cases hstamp : hasStamp (stampFile locate workDir e.inv) files with
  | true =>
      -- Over a complete stamp, the place between the two commands is excluded.
      refine run_seq_unless _ _ hpublish (fun t ht k => ?_) files rfl e.steps fun hstop =>
        hnot ⟨hstamp, image, hfresh, hstop⟩
      exact ends_redirect_succ _ _ t (hpart t ht) (hdone t ht) k
  | false =>
      refine Triple.seq _ _ hpublish (Triple.redirect _ _ (fun t ht => ?_) hpart hdone) files rfl
        e.steps
      exact ht.stampsHold hpaths he hfiles hstamp

/-- The texts of which an invocation takes the digest. -/
def eventTexts (workDir : Bytes) (tools : InitrdTools) (e : InitrdEvent) : List Bytes :=
  match checkedSettings workDir tools e.inv with
  | none => []
  | some s => digestedTexts tools workDir e.inv s

theorem checkedSettings_spec {inv : Invocation} {s : Settings}
    (h : checkedSettings workDir tools inv = some s) :
    settings workDir tools inv = some s ∧
      (inv.file (baseInitrd workDir inv)).isSome = true ∧
      (inv.file (rootfsArchive workDir inv)).isSome = true := by
  rcases Option.bind_eq_some_iff.mp h with ⟨t, ht, h⟩
  rcases Option.ite_none_right_eq_some.mp h with ⟨hfiles, heq⟩
  rw [← Option.some.inj heq]
  exact ⟨ht, hfiles⟩

theorem freshImage_spec {files : Files κ UInt8} {e : InitrdEvent} {image : Bytes}
    (h : image ∈ freshImage locate workDir tools files e) :
    ∃ s, checkedSettings workDir tools e.inv = some s ∧
      initrdImage workDir tools e.inv s e.nonce = some image := by
  rcases Option.bind_eq_some_iff.mp h with ⟨s, hs, h⟩
  rcases Option.ite_none_left_eq_some.mp h with ⟨-, himage⟩
  exact ⟨s, hs, himage⟩

/-- An image in its place, beside what else there is. -/
def placeImage (temporary output : κ) (image : Bytes) (files : Files κ UInt8) : Files κ UInt8 :=
  ((files.insert temporary image).insert output image).erase temporary

/-- With enough commands the image is in its place. -/
theorem run_publishImage (temporary output : κ) (image : Bytes) (files : Files κ UInt8) (k : Nat) :
    (publishImage temporary output image).run (image.length + 2 + k) files =
      (placeImage temporary output image files, some k) := by
  have hmove : moveFile temporary output (files.insert temporary image) =
      some (placeImage temporary output image files) := by
    rw [moveFile, AList.lookup_insert, Option.map_some]
    rfl
  unfold publishImage
  rw [Script.run, show image.length + 2 + k = image.length + (k + 1) + 1 by omega,
    run_redirect_of_le _ _ _ _ (Nat.le_add_right image.length (k + 1)), Nat.add_sub_cancel_left]
  simp only [Script.run, hmove]

/-- An invocation that is stopped later is not torn. -/
theorem not_torn_of_lt {files : Files κ UInt8} {e : InitrdEvent}
    (h : ∀ image ∈ freshImage locate workDir tools files e, image.length + 2 < e.steps) :
    ¬ TornPublication locate workDir tools files e := by
  rintro ⟨-, image, himage, hstop⟩
  have hlen := h image himage
  rw [show e.steps = image.length + 2 + (e.steps - (image.length + 2)) by omega,
    run_publishImage] at hstop
  exact absurd (Option.some.inj hstop) (by omega)

theorem lookup_placeImage {temporary output : κ} (hne : temporary ≠ output) (image : Bytes)
    (files : Files κ UInt8) :
    (placeImage temporary output image files).lookup output = some image ∧
      ∀ other, other ≠ temporary → other ≠ output →
        (placeImage temporary output image files).lookup other = files.lookup other := by
  unfold placeImage
  refine ⟨?_, fun other htemporary houtput => ?_⟩
  · rw [AList.lookup_erase_ne hne.symm, AList.lookup_insert]
  · rw [AList.lookup_erase_ne htemporary, AList.lookup_insert_ne houtput,
      AList.lookup_insert_ne htemporary]

/-- What an invocation with a new image leaves, once the image is there. -/
theorem initrdStep_built (files : Files κ UInt8) {e : InitrdEvent} {s : Settings}
    (hs : checkedSettings workDir tools e.inv = some s)
    (hcached : isCached (outputFile locate workDir e.inv) (stampFile locate workDir e.inv)
      (signature workDir tools e.inv s) files = false)
    {image : Bytes} (himage : initrdImage workDir tools e.inv s e.nonce = some image) (k : Nat)
    (hk : e.steps = image.length + 2 + k) :
    initrdStep locate workDir tools files e =
      ((redirect (stampFile locate workDir e.inv) (signature workDir tools e.inv s ++ [10])).run k
        (placeImage (temporaryFile locate workDir e) (outputFile locate workDir e.inv) image
          files)).1 := by
  unfold initrdStep makeRuntimeInitrd
  simp only [hs, Script.run, hcached, Bool.false_eq_true, if_false, himage]
  rw [hk, run_publishImage]

/-- A cached image is the one that would be built. -/
theorem isCached_builtFrom (htools : Documented tools)
    (happart : TellsApart tools.digest (events.flatMap (eventTexts workDir tools)))
    {files : Files κ UInt8} (hfiles : StampsHold locate workDir tools events files)
    {e : InitrdEvent} (he : e ∈ events) {s : Settings}
    (hs : checkedSettings workDir tools e.inv = some s)
    (hcached : isCached (outputFile locate workDir e.inv) (stampFile locate workDir e.inv)
      (signature workDir tools e.inv s) files = true) :
    BuiltFrom locate workDir tools e.inv files := by
  rcases (Option.any_eq_true _ _).mp (Bool.and_eq_true_iff.mp hcached).2 with
    ⟨text, htext, hsig⟩
  have hsig := of_decide_eq_true hsig
  have hlen : 64 ≤ text.length := by
    rw [← htools.digest.length (signatureText workDir tools e.inv s)]
    exact (congrArg List.length hsig).ge.trans (length_commandOutput_le text)
  rcases hfiles e he text htext hlen with ⟨e', he', s', hs', hpre, nonce, image, himage, houtput⟩
  rw [commandOutput_of_front tools htools.digest _ text hpre hlen] at hsig
  -- One signature stands for one text, and the text for the image.
  have hmem : ∀ f ∈ events, ∀ t, checkedSettings workDir tools f.inv = some t →
      ∀ x ∈ digestedTexts tools workDir f.inv t, x ∈ events.flatMap (eventTexts workDir tools) := by
    intro f hf t ht x hx
    refine List.mem_flatMap.mpr ⟨f, hf, ?_⟩
    rw [eventTexts, ht]
    exact hx
  have htexts : signatureText workDir tools e'.inv s' = signatureText workDir tools e.inv s :=
    happart _ (hmem e' he' s' hs' _ List.mem_cons_self) _ (hmem e he s hs _ List.mem_cons_self) hsig
  rcases checkedSettings_spec hs with ⟨hset, hbase, harchive⟩
  rcases checkedSettings_spec hs' with ⟨hset', hbase', harchive'⟩
  have hsame := initrdImage_eq tools htools hset' hset hbase' hbase harchive' harchive
    (happart.mono fun x hx => (List.mem_append.mp hx).elim (hmem e' he' s' hs' x) (hmem e he s hs x))
    htexts
  exact ⟨s, hs, nonce, image, hsame ▸ himage, houtput⟩

/-- One invocation keeps the stamps honest, and its own output is fresh. -/
theorem initrdStep_spec (htools : Documented tools) (hpaths : PathsApart locate workDir events)
    (happart : TellsApart tools.digest (events.flatMap (eventTexts workDir tools)))
    {files : Files κ UInt8} (hfiles : StampsHold locate workDir tools events files)
    {e : InitrdEvent} (he : e ∈ events) (hnot : ¬ TornPublication locate workDir tools files e) :
    StampsHold locate workDir tools events (initrdStep locate workDir tools files e) ∧
      FreshOutput locate workDir tools files e := by
  unfold FreshOutput initrdStep exitsZero
  rcases run_cases locate workDir tools files e with hrun | ⟨s, hs, ⟨hcached, hrun⟩ | ⟨image,
    himage, hfresh, hrun⟩⟩
  · rw [hrun]
    exact ⟨hfiles, fun h => absurd h (by simp only [Option.isSome_none, Bool.false_eq_true,
      not_false_eq_true])⟩
  · rw [hrun]
    exact ⟨hfiles, fun _ => isCached_builtFrom htools happart hfiles he hs hcached⟩
  · rw [hrun]
    have hends := ends_publication hpaths hfiles he hs himage hfresh hnot
    -- The invocation finished with its stamp, or was stopped without success.
    generalize ((publishImage (temporaryFile locate workDir e) (outputFile locate workDir e.inv)
      image).seq _).run e.steps files = r at hends
    rcases r with ⟨t, left⟩
    cases left with
    | some left => exact ⟨hends.1, fun _ => hends.2⟩
    | none => exact ⟨hends, fun h => absurd h (by simp only [Option.isSome_none, Bool.false_eq_true,
        not_false_eq_true])⟩

/-- Sequences of invocations: if their paths are apart and none of them is
    stopped between an image and its stamp over a complete stamp, every success
    leaves the invocation's own output. -/
theorem initrdCache_fresh (locate : Bytes → κ) (workDir : Bytes) (tools : InitrdTools)
    (htools : Documented tools) (events : List InitrdEvent)
    (hpaths : PathsApart locate workDir events)
    (happart : TellsApart tools.digest (events.flatMap (eventTexts workDir tools)))
    (hmeets : Meets (initrdStep locate workDir tools)
      (fun files e => ¬ TornPublication locate workDir tools files e) ∅ events) :
    Meets (initrdStep locate workDir tools) (FreshOutput locate workDir tools) ∅ events := by
  have hevents := (meets_of_forall (initrdStep locate workDir tools) (· ∈ events) ∅ events).mpr
    fun _ he => he
  refine Meets.of_invariant _ _ _ (StampsHold locate workDir tools events)
    (fun files e hfiles h => ?_) (fun files e hfiles h => ?_) ∅ events ?_ (hevents.and hmeets)
  · exact (initrdStep_spec htools hpaths happart hfiles h.1 h.2).1
  · exact (initrdStep_spec htools hpaths happart hfiles h.1 h.2).2
  · intro f _ text htext
    exact absurd htext (by simp only [AList.lookup_empty, reduceCtorEq, not_false_eq_true])

end Cache

/-! ### A switch that is turned on and off -/

def switchDir : Bytes := ascii "/opt/zd1200"

/-- The same contents in every file of the directory, and a build id. -/
def switchFile (path : Bytes) : Option Bytes :=
  if path = switchDir ++ ascii "/image/virtual-build-id" then some (ascii "0123abc\n")
  else if switchDir.isPrefixOf path then some (ascii "#")
  else none

/-- An invocation with the defaults and with the switch for the root CLI. -/
def switchInvocation (rootCli : Bytes) : Invocation where
  env :=
    { stateDir := [], baseInitrd := [], zdRootfsArchive := [], runtimeInitrd := [], zdPayload := []
      zd1051Payload := [], zdEnableEcdsaSsh := [], zdEnableRootCli := rootCli
      zdSupportEntitlementEnd := [], zdRootSshPublicKey := [], zdPingClientTargets := []
      zdPingIntervalSeconds := [], zdSnapshotIntervalSeconds := [] }
  file := switchFile
  revision := none

/-- The programs, with an archiver that writes the contents only. -/
def switchTools (digest : Bytes → Bytes) : InitrdTools where
  digest := digest
  day := fun _ => none
  epoch := fun _ => none
  normalizeKey := fun _ _ => none
  stock := fun _ _ => some (ascii "#")
  unpack := fun _ => some []
  pack := fun _ base entries => some (base ++ entries.flatMap Prod.snd)

/-- The digest of the contents. -/
def contentsDigest : Bytes :=
  ascii "334359b90efed75d" ++ ascii "a5f0ada1d5e6b256" ++ ascii "f4a6bd0aee7eb39c" ++
    ascii "0f90182a021ffc8b"

/-- The digest of the text with the switch off. -/
def offDigest : Bytes :=
  ascii "266c2803afeef04c" ++ ascii "7312f7480ef8e064" ++ ascii "5f749dfb3c4ec956" ++
    ascii "a3a843dec17c1d16"

/-- The digest of the text with the switch on. -/
def onDigest : Bytes :=
  ascii "bf3efbb10bf9c5e2" ++ ascii "a7b51d4a9c921495" ++ ascii "02ba0e346e38c20d" ++
    ascii "19d09279d982abdf"

/-- The digests of the texts that occur: that of the contents, and those behind
    the signatures, which differ in one character. -/
def switchDigest (text : Bytes) : Bytes :=
  if text = ascii "#" then contentsDigest
  else if text[1909]? = some 48 then offDigest
  else onDigest

theorem switchTools_documented : Documented (switchTools switchDigest) := by
  have hdigest : ∀ text, switchDigest text ∈
      [contentsDigest, offDigest, onDigest] := by
    intro text
    unfold switchDigest
    split
    · exact List.mem_cons_self
    · split
      · exact List.mem_cons_of_mem _ List.mem_cons_self
      · exact List.mem_cons_of_mem _ (List.mem_cons_of_mem _ List.mem_cons_self)
  refine ⟨⟨fun text => ?_, fun text c hc => ?_⟩, fun _ day hday => ?_⟩
  · exact (by decide : ∀ digest ∈
      [contentsDigest, offDigest, onDigest], digest.length = 64) _ (hdigest text)
  · have hhex : ∀ digest ∈ [contentsDigest, offDigest, onDigest], digest.all isHexByte = true := by
      decide
    exact List.all_eq_true.mp (hhex _ (hdigest text)) c hc
  · exact absurd hday (by simp only [switchTools, reduceCtorEq, not_false_eq_true])

/-- Off, on and off again, the second time killed after some commands. -/
def switchEvents (steps : Nat) : List InitrdEvent :=
  [⟨switchInvocation (ascii "0"), 1, 0, 400⟩, ⟨switchInvocation (ascii "1"), 2, 0, steps⟩,
    ⟨switchInvocation (ascii "0"), 3, 0, 400⟩]

/-- What is behind the signature. -/
def switchText (rootCli : Bytes) : Bytes :=
  ((checkedSettings switchDir (switchTools switchDigest) (switchInvocation rootCli)).map
    (signatureText switchDir (switchTools switchDigest) (switchInvocation rootCli))).getD []

theorem switchText_eq {rootCli : Bytes} {s : Settings}
    (hs : checkedSettings switchDir (switchTools switchDigest) (switchInvocation rootCli) = some s) :
    signatureText switchDir (switchTools switchDigest) (switchInvocation rootCli) s
      = switchText rootCli := by
  rw [switchText, hs, Option.map_some, Option.getD_some]

theorem switchDigest_text : switchDigest (switchText (ascii "0")) = offDigest ∧
    switchDigest (switchText (ascii "1")) = onDigest := by decide +kernel

/-- Without a key the digests are those of the contents and of the two texts. -/
theorem eventTexts_switch (rootCli : Bytes) (hcli : rootCli ∈ [ascii "0", ascii "1"])
    (pid steps : Nat) :
    ∀ text ∈ eventTexts switchDir (switchTools switchDigest)
        ⟨switchInvocation rootCli, pid, 0, steps⟩,
      text ∈ [ascii "#", switchText (ascii "0"), switchText (ascii "1")] := by
  have hall : ∀ rootCli ∈ [ascii "0", ascii "1"],
      ∀ s ∈ checkedSettings switchDir (switchTools switchDigest) (switchInvocation rootCli),
        keyTexts s = [] ∧ ∀ contents ∈ (presentSources switchDir (switchInvocation rootCli)).map
          Prod.snd, contents = ascii "#" := by decide +kernel
  intro text htext
  unfold eventTexts at htext
  split at htext
  · exact absurd htext List.not_mem_nil
  · next s hs =>
    rcases hall rootCli hcli s hs with ⟨hkey, hcontents⟩
    unfold digestedTexts at htext
    rw [hkey, List.nil_append] at htext
    rcases List.mem_cons.mp htext with rfl | hmem
    · rw [switchText_eq hs]
      simp only [List.mem_cons, List.not_mem_nil, or_false] at hcli
      rcases hcli with rfl | rfl
      · exact List.mem_cons_of_mem _ List.mem_cons_self
      · exact List.mem_cons_of_mem _ (List.mem_cons_of_mem _ List.mem_cons_self)
    · rw [hcontents text hmem]
      exact List.mem_cons_self

theorem switchEvents_apart (steps : Nat) : TellsApart (switchTools switchDigest).digest
    ((switchEvents steps).flatMap (eventTexts switchDir (switchTools switchDigest))) := by
  have h : TellsApart (switchTools switchDigest).digest
      [ascii "#", switchText (ascii "0"), switchText (ascii "1")] := by
    -- The three digests are three.
    have hapart : [contentsDigest, offDigest, onDigest].Nodup := by decide
    have hmap : [ascii "#", switchText (ascii "0"), switchText (ascii "1")].map switchDigest
        = [contentsDigest, offDigest, onDigest] := by
      rw [List.map_cons, List.map_cons, List.map_singleton, switchDigest_text.1,
        switchDigest_text.2, switchDigest, if_pos rfl]
    exact fun a ha b hb heq => List.inj_on_of_nodup_map (hmap ▸ hapart) ha hb heq
  refine h.mono fun text htext => ?_
  rcases List.mem_flatMap.mp htext with ⟨e, he, htext⟩
  simp only [switchEvents, List.mem_cons, List.not_mem_nil, or_false] at he
  rcases he with rfl | rfl | rfl
  · exact eventTexts_switch _ List.mem_cons_self _ _ text htext
  · exact eventTexts_switch _ (List.mem_cons_of_mem _ List.mem_cons_self) _ _ text htext
  · exact eventTexts_switch _ List.mem_cons_self _ _ text htext

/-- What the two invocations build. -/
theorem length_switchImage : ∀ rootCli ∈ [ascii "0", ascii "1"],
    ∀ s ∈ checkedSettings switchDir (switchTools switchDigest) (switchInvocation rootCli),
      (initrdImage switchDir (switchTools switchDigest) (switchInvocation rootCli) s 0).map
        List.length = some 166 := by decide +kernel

/-- They have one output. -/
theorem switchEvents_paths (steps : Nat) : PathsApart id switchDir (switchEvents steps) := by
  refine pathsApart_of_one id switchDir Function.injective_id _
    (outputPath switchDir (switchInvocation (ascii "0"))) fun e he => ?_
  simp only [switchEvents, List.mem_cons, List.not_mem_nil, or_false] at he
  rcases he with rfl | rfl | rfl
  all_goals rfl

/-- They are long over when they are killed, or never come to the image. -/
theorem initrdCache_fresh_switch :
    Meets (initrdStep id switchDir (switchTools switchDigest))
      (FreshOutput id switchDir (switchTools switchDigest)) ∅ (switchEvents 400) := by
  refine initrdCache_fresh id switchDir (switchTools switchDigest) switchTools_documented
    (switchEvents 400) (switchEvents_paths 400) (switchEvents_apart 400) ?_
  refine Meets.imp _ _ _ (fun files e he => not_torn_of_lt fun image himage => ?_) ∅ _
    ((meets_of_forall _ (· ∈ switchEvents 400) ∅ _).mpr fun _ he => he)
  rcases freshImage_spec himage with ⟨s, hs, himage⟩
  have hsteps : e.steps = 400 := (by decide : ∀ e ∈ (switchEvents 400).map
    InitrdEvent.steps, e = 400) _ (List.mem_map_of_mem he)
  have hinv : ∃ rootCli ∈ [ascii "0", ascii "1"], e.inv = switchInvocation rootCli ∧ e.nonce = 0 := by
    simp only [switchEvents, List.mem_cons, List.not_mem_nil, or_false] at he
    rcases he with rfl | rfl | rfl
    · exact ⟨_, List.mem_cons_self, rfl, rfl⟩
    · exact ⟨_, List.mem_cons_of_mem _ List.mem_cons_self, rfl, rfl⟩
    · exact ⟨_, List.mem_cons_self, rfl, rfl⟩
  rcases hinv with ⟨rootCli, hcli, hinv, hnonce⟩
  rw [hinv] at hs himage
  have hlen := length_switchImage rootCli hcli s hs
  rw [hnonce] at himage
  rw [himage, Option.map_some, Option.some.injEq] at hlen
  omega

/-- The switch shows in the signature. -/
theorem switch_signature {s t : Settings}
    (hs : checkedSettings switchDir (switchTools switchDigest) (switchInvocation (ascii "0")) = some s)
    (ht : checkedSettings switchDir (switchTools switchDigest) (switchInvocation (ascii "1")) = some t) :
    signature switchDir (switchTools switchDigest) (switchInvocation (ascii "0")) s ≠
      signature switchDir (switchTools switchDigest) (switchInvocation (ascii "1")) t := by
  have hoff : (switchTools switchDigest).digest = switchDigest := rfl
  rw [signature, signature, switchText_eq hs, switchText_eq ht, hoff, switchDigest_text.1,
    switchDigest_text.2]
  decide

/-- The switch shows in the image. -/
theorem switch_image :
    ∀ s ∈ checkedSettings switchDir (switchTools switchDigest) (switchInvocation (ascii "0")),
    ∀ t ∈ checkedSettings switchDir (switchTools switchDigest) (switchInvocation (ascii "1")),
      initrdImage switchDir (switchTools switchDigest) (switchInvocation (ascii "0")) s 0 ≠
        initrdImage switchDir (switchTools switchDigest) (switchInvocation (ascii "1")) t 0 := by
  decide

/-- Stopped between its image and its stamp, the second invocation leaves an
    image with the switch on, which the third one takes. -/
theorem initrdCache_stale :
    Documented (switchTools switchDigest) ∧ PathsApart id switchDir (switchEvents 168) ∧
      TellsApart (switchTools switchDigest).digest
        ((switchEvents 168).flatMap (eventTexts switchDir (switchTools switchDigest))) ∧
      ¬ Meets (initrdStep id switchDir (switchTools switchDigest))
        (FreshOutput id switchDir (switchTools switchDigest)) ∅ (switchEvents 168) := by
  refine ⟨switchTools_documented, switchEvents_paths 168, switchEvents_apart 168, fun h => ?_⟩
  have hsome : ∀ rootCli ∈ [ascii "0", ascii "1"],
      (checkedSettings switchDir (switchTools switchDigest)
        (switchInvocation rootCli)).isSome = true := by decide
  rcases Option.isSome_iff_exists.mp (hsome _ List.mem_cons_self) with ⟨off, hoff⟩
  rcases Option.isSome_iff_exists.mp (hsome _ (List.mem_cons_of_mem _ List.mem_cons_self)) with
    ⟨on, hon⟩
  have hlenOff := length_switchImage _ List.mem_cons_self off hoff
  have hlenOn := length_switchImage _ (List.mem_cons_of_mem _ List.mem_cons_self) on hon
  have hsig := switch_signature hoff hon
  have himages := switch_image off hoff on hon
  rcases Option.map_eq_some_iff.mp hlenOff with ⟨imageOff, hbuiltOff, hlenOff⟩
  rcases Option.map_eq_some_iff.mp hlenOn with ⟨imageOn, hbuiltOn, hlenOn⟩
  have hpath : outputFile id switchDir (switchInvocation (ascii "1"))
      = outputFile id switchDir (switchInvocation (ascii "0")) := rfl
  have hpath' : stampFile id switchDir (switchInvocation (ascii "1"))
      = stampFile id switchDir (switchInvocation (ascii "0")) := rfl
  have hpaths := switchEvents_paths 168
  have hmem : ⟨switchInvocation (ascii "0"), 1, 0, 400⟩ ∈ switchEvents 168 := List.mem_cons_self
  have hmem' : ⟨switchInvocation (ascii "1"), 2, 0, 168⟩ ∈ switchEvents 168 :=
    List.mem_cons_of_mem _ List.mem_cons_self
  have hline : commandOutput
      (signature switchDir (switchTools switchDigest) (switchInvocation (ascii "0")) off ++ [10])
        = signature switchDir (switchTools switchDigest) (switchInvocation (ascii "0")) off := by
    rw [commandOutput_line, signature, commandOutput_digest _ switchTools_documented.digest]
  -- The first invocation leaves its image and its stamp.
  have hfirst : initrdStep id switchDir (switchTools switchDigest) ∅
      ⟨switchInvocation (ascii "0"), 1, 0, 400⟩ = _ :=
    initrdStep_built ∅ hoff rfl hbuiltOff 232 (by rw [hlenOff])
  rw [run_redirect_of_le _ _ 231 _ (by
    rw [List.length_append, signature, switchTools_documented.digest.length]; decide)] at hfirst
  -- The second one leaves its image beside the stamp of the first one.
  have hsecond := initrdStep_built
    (initrdStep id switchDir (switchTools switchDigest) ∅ ⟨switchInvocation (ascii "0"), 1, 0, 400⟩)
    (e := ⟨switchInvocation (ascii "1"), 2, 0, 168⟩) hon (by
        rw [hfirst, hpath, hpath']
        unfold isCached
        rw [AList.lookup_insert, Option.any_some, hline, decide_eq_false hsig, Bool.and_false])
    hbuiltOn 0 (by rw [hlenOn])
  rw [(run_zero _ _).1, hpath] at hsecond
  have hstate := lookup_placeImage (hpaths.temporaryOutput _ hmem' _ hmem) imageOn
    (initrdStep id switchDir (switchTools switchDigest) ∅ ⟨switchInvocation (ascii "0"), 1, 0, 400⟩)
  -- The third one finds its own stamp.
  have hstamp := hstate.2 (stampFile id switchDir (switchInvocation (ascii "0")))
    (hpaths.temporaryStamp _ hmem' _ hmem).symm (hpaths.stamp _ hmem _ hmem)
  have hcached : isCached (outputFile id switchDir (switchInvocation (ascii "0")))
      (stampFile id switchDir (switchInvocation (ascii "0")))
      (signature switchDir (switchTools switchDigest) (switchInvocation (ascii "0")) off)
      (initrdStep id switchDir (switchTools switchDigest)
        (initrdStep id switchDir (switchTools switchDigest) ∅
          ⟨switchInvocation (ascii "0"), 1, 0, 400⟩)
        ⟨switchInvocation (ascii "1"), 2, 0, 168⟩) = true := by
    rw [hsecond]
    unfold isCached
    rw [hstate.1, hstamp, hfirst, AList.lookup_insert, Option.any_some, Option.any_some, hline,
      decide_eq_true rfl, Bool.and_true]
    refine decide_eq_true fun hnil => ?_
    rw [hnil] at hlenOn
    exact absurd hlenOn (by decide)
  have hrun := run_cached (e := ⟨switchInvocation (ascii "0"), 3, 0, 400⟩) hoff hcached
  rcases h.2.2.1 (by rw [exitsZero, hrun, Option.isSome_some]) with
    ⟨s, hs, nonce, image, himage, houtput⟩
  rw [initrdStep, hrun, hsecond] at houtput
  have hs : s = off := Option.some.inj (hs.symm.trans hoff)
  have himageOn : some image = some imageOn := houtput.symm.trans hstate.1
  have himageOff : some imageOff = some image := hbuiltOff.symm.trans (hs ▸ himage)
  exact himages (hbuiltOff.trans ((himageOff.trans himageOn).trans hbuiltOn.symm))

end Zd1200
