import Zd1200.Boot.Payload

/-!
# The Images Match the Bundle

When the images on the data partition are those of the bundle that was booted.

A marker says that its payload was installed once. Nothing takes it away when
another payload replaces the images, so a bundle that is booted again after
another one finds its marker and the images of the other one. Nor does it tell
rebuilt bundles apart whose control file is the same.

What a marker ought to say is kept beside the partition: the payload of the
last installation that was begun, if all of it was done.

## Main definitions

* `Matches`: The images are those of a payload.
* `Station`: The partition, and the payload that was installed last.
* `Matched`: What is expected of a boot.
* `Undisturbed`: A marker that is found says the truth.

## Theorems

* `payloadHandoff_idle`, `payloadHandoff_installs`: What a boot does.
* `payloadHandoff_marked`: A marked payload is not installed.
* `matched_of_meets`: Sequences of boots.
-/

namespace Zd1200

/-- What lies at a path of the payload's images. -/
def Payload.image (payload : Payload) (path : FilePath) : Option FileEntry :=
  payload.firmwares.bind fun tree => tree.lookup path

/-- The images are those of the payload, with its list of files. -/
structure Matches (payload : Payload) (images : ApImages) : Prop where
  firmwares : ∀ path, images.firmwares.lookup path =
    if path = ["file_list.txt"] then payload.fileList.map .file else payload.image path
  apModels : images.apModels = payload.apModels

/-- The payloads have the same images. -/
structure SameImages (payload other : Payload) : Prop where
  firmwares : ∀ path, payload.image path = other.image path
  apModels : payload.apModels = other.apModels
  fileList : payload.fileList = other.fileList

/-- No command of the installation fails. -/
def Boot.clean (boot : Boot) : Bool := (List.range 5).all fun number => (boot.fault number).isNone

/-- The data partition, and the payload of the last installation that was
    begun, if it was done to its end and no command of it failed. -/
structure Station where
  data : DataPartition
  last : Option Payload

section Boots

variable (md5 : Bytes → List Char)

/-- A boot begins to install its payload. -/
def begins (boot : Boot) (data : DataPartition) : Bool :=
  0 < boot.steps && !marked md5 boot.payload data && boot.payload.firmwares.isSome &&
    boot.payload.apModels.isSome && boot.payload.fileList.isSome

/-- The handoff gets past the installation. -/
def finishes (boot : Boot) (data : DataPartition) : Bool :=
  ((payloadHandoff md5 boot).run boot.steps data).2.isSome

def Station.boot (s : Station) (boot : Boot) : Station where
  data := ((payloadHandoff md5 boot).run boot.steps s.data).1
  last :=
    if begins md5 boot s.data then
      if finishes md5 boot s.data && boot.clean then some boot.payload else none
    else s.last

/-- A boot that finishes without a failure and leaves the marker of its
    payload leaves the images of its payload. -/
def Matched (s : Station) (boot : Boot) : Prop :=
  finishes md5 boot s.data = true → boot.clean = true →
    marked md5 boot.payload (s.boot md5 boot).data = true →
      Matches boot.payload (s.boot md5 boot).data.images

/-- If the marker of the payload is found, the last installation that was begun
    was done, and it was one of the same images. -/
def Undisturbed (s : Station) (boot : Boot) : Prop :=
  marked md5 boot.payload s.data = true →
    ∃ payload, s.last = some payload ∧ SameImages boot.payload payload

/-! ### One boot -/

/-- A boot that does not begin to install its payload changes nothing. -/
theorem payloadHandoff_idle (boot : Boot) (data : DataPartition)
    (hidle : begins md5 boot data = false) :
    ((payloadHandoff md5 boot).run boot.steps data).1 = data := by
  by_cases hsteps : boot.steps = 0
  · rw [hsteps]
    exact (Script.run_zero _ data).1
  rw [payloadHandoff, Script.ifThen, Script.run]
  split
  · next hmarked =>
    -- Without one of its parts a payload is left alone.
    rcases hfirmwares : boot.payload.firmwares with _ | tree
    · rfl
    rcases hmodels : boot.payload.apModels with _ | models
    · rfl
    rcases hlist : boot.payload.fileList with _ | list
    · rfl
    rw [begins, hmarked, hfirmwares, hmodels, hlist,
      decide_eq_true (Nat.pos_of_ne_zero hsteps)] at hidle
    simp only [Option.isSome_some, Bool.and_self, Bool.true_eq_false] at hidle
  · rfl

/-- A payload whose marker is found is not installed, whatever is on the
    partition. -/
theorem payloadHandoff_marked (boot : Boot) (data : DataPartition)
    (hmarked : marked md5 boot.payload data = true) :
    ((payloadHandoff md5 boot).run boot.steps data).1 = data := by
  refine payloadHandoff_idle md5 boot data ?_
  rw [begins, hmarked, Bool.not_true, Bool.and_false, Bool.false_and, Bool.false_and,
    Bool.false_and]

-- What the commands of an installation do together.
theorem installPayload_complete (boot : Boot) (tree : FileTree) (models list : Bytes)
    (data data' : DataPartition) (hclean : boot.clean = true)
    (h : (installPayload md5 boot tree models list).complete data = some data') :
    data'.images.firmwares = tree.insert ["file_list.txt"] (.file list) ∧
      data'.images.apModels = some models := by
  have hfault : ∀ number, number < 5 → boot.fault number = none := fun number hlt =>
    Option.isNone_iff_eq_none.mp (List.all_eq_true.mp hclean number (List.mem_range.mpr hlt))
  have haidfs : ∀ images, (copyAidfs boot.payload images).firmwares = images.firmwares := by
    intro images
    unfold copyAidfs
    split
    · split <;> rfl
    · rfl
  simp only [installPayload, Script.inOrder, Script.forEach, List.foldr_cons, List.foldr_nil,
    Script.complete, busybox, Script.act, Option.bind_some, Script.ifThen,
    hfault 0 (by omega), hfault 1 (by omega), hfault 2 (by omega), hfault 3 (by omega),
    hfault 4 (by omega), Option.getD_none] at h
  rw [Option.bind_eq_some_iff] at h
  rcases h with ⟨data'', htouch, hskip⟩
  -- The marker is no image.
  have himages : data'.images = copyApModels models (copyFileList list (copyAidfs boot.payload
      (copyFirmwares tree (removeImages data.images)))) := by
    rw [← Option.some.inj hskip]
    split at htouch <;> rw [← Option.some.inj htouch]
    rfl
  rw [himages]
  refine ⟨?_, rfl⟩
  simp only [copyApModels, copyFileList, haidfs, copyFirmwares, removeImages]
  rw [AList.union_empty]

/-- A boot that installs its payload to the end leaves its images. -/
theorem payloadHandoff_installs (boot : Boot) (data : DataPartition)
    (hbegins : begins md5 boot data = true) (hfinishes : finishes md5 boot data = true)
    (hclean : boot.clean = true) :
    Matches boot.payload ((payloadHandoff md5 boot).run boot.steps data).1.images := by
  simp only [begins, Bool.and_eq_true, Option.isSome_iff_exists] at hbegins
  rcases hbegins with ⟨⟨⟨⟨-, hmarked⟩, tree, htree⟩, models, hmodels⟩, list, hlist⟩
  rcases Option.isSome_iff_exists.mp hfinishes with ⟨left, hleft⟩
  have hcomplete : (payloadHandoff md5 boot).complete data =
      some ((payloadHandoff md5 boot).run boot.steps data).1 :=
    Script.complete_of_run _ _ _ _ _ (Prod.ext rfl hleft)
  generalize ((payloadHandoff md5 boot).run boot.steps data).1 = data' at hcomplete ⊢
  rw [payloadHandoff, Script.ifThen, Script.complete, if_pos hmarked, htree, hmodels,
    hlist] at hcomplete
  rcases installPayload_complete md5 boot tree models list data data' hclean hcomplete with
    ⟨hfirmwares, hapModels⟩
  refine ⟨fun path => ?_, hapModels.trans hmodels.symm⟩
  rw [hfirmwares, hlist]
  by_cases hpath : path = ["file_list.txt"]
  · rw [hpath, if_pos rfl, AList.lookup_insert, Option.map_some]
  · rw [if_neg hpath, AList.lookup_insert_ne hpath, Payload.image, htree, Option.bind_some]

/-! ### Sequences of boots -/

/-- What was installed last is on the partition. -/
def Faithful (s : Station) : Prop :=
  ∀ payload, s.last = some payload → Matches payload s.data.images

/-- Every boot keeps that. -/
theorem faithful_boot (s : Station) (boot : Boot) (hs : Faithful s) :
    Faithful (s.boot md5 boot) := by
  intro payload hlast
  simp only [Station.boot] at hlast ⊢
  cases hbegins : begins md5 boot s.data with
  | true =>
      rw [hbegins, if_pos rfl] at hlast
      split at hlast
      · next hdone =>
        rw [Bool.and_eq_true] at hdone
        rw [← Option.some.inj hlast]
        exact payloadHandoff_installs md5 boot s.data hbegins hdone.1 hdone.2
      · exact absurd hlast (by simp only [reduceCtorEq, not_false_eq_true])
  | false =>
      rw [hbegins, if_neg Bool.false_ne_true] at hlast
      rw [payloadHandoff_idle md5 boot s.data hbegins]
      exact hs payload hlast

-- Payloads with the same images match together.
theorem Matches.of_same (payload other : Payload) (images : ApImages)
    (hsame : SameImages payload other) (h : Matches other images) : Matches payload images := by
  refine ⟨fun path => ?_, h.apModels.trans hsame.apModels.symm⟩
  rw [h.firmwares path, hsame.fileList, hsame.firmwares path]

/-- A boot matches if the marker that it finds says the truth. -/
theorem matched_of_undisturbed (s : Station) (boot : Boot) (hs : Faithful s)
    (hundisturbed : Undisturbed md5 s boot) : Matched md5 s boot := by
  intro hfinishes hclean hmarked
  cases hbegins : begins md5 boot s.data with
  | true => exact payloadHandoff_installs md5 boot s.data hbegins hfinishes hclean
  | false =>
      -- The marker was there before, and so were the images.
      have hidle := payloadHandoff_idle md5 boot s.data hbegins
      simp only [Station.boot, hidle] at hmarked ⊢
      rcases hundisturbed hmarked with ⟨other, hlast, hsame⟩
      exact Matches.of_same _ _ _ hsame (hs other hlast)

/-- In a sequence of boots from any data partition whose markers say the truth
    whenever they are found, the images match after every boot. -/
theorem matched_of_meets (data : DataPartition) (boots : List Boot)
    (hmeets : Meets (Station.boot md5) (Undisturbed md5) ⟨data, none⟩ boots) :
    Meets (Station.boot md5) (Matched md5) ⟨data, none⟩ boots := by
  have hinitial : Faithful ⟨data, none⟩ := fun payload hlast =>
    absurd hlast (by simp only [reduceCtorEq, not_false_eq_true])
  exact Meets.imp_of_invariant _ _ _ Faithful (fun s boot hs => faithful_boot md5 s boot hs)
    (fun s boot hs hundisturbed => matched_of_undisturbed md5 s boot hs hundisturbed) _ boots
    hinitial hmeets

end Boots

/-- A tree with an image for one access point and its control file. -/
def sampleTree (image : Bytes) : FileTree :=
  List.toAList [⟨["r600"], .directory⟩, ⟨["r600", "10.2"], .directory⟩,
    ⟨["r600", "10.2", "1_cntrl.rcks"], .file []⟩, ⟨["r600", "10.2", "image.bl7"], .file image⟩,
    ⟨["r600", "control"], .link (some [.down "10.2", .down "1_cntrl.rcks"])⟩]

/-- A boot of a bundle with such a tree, which nothing goes wrong in. -/
def sampleBoot (version : List Char) (image : Bytes) : Boot where
  payload := makePayload ⟨sampleTree image, [1], [2], none⟩
    ⟨['z'], version, 275, "not_required".toList, "not_supported".toList⟩
  steps := 100
  fault := fun _ => none
  elsewhere := false

/-- The digest of an empty file. -/
def emptyDigest (_ : Bytes) : List Char := "d41d8cd98f00b204e9800998ecf8427e".toList

theorem matched_same_bundle :
    Meets (Station.boot emptyDigest) (Matched emptyDigest) ⟨⟨⟨∅, none, none⟩, []⟩, none⟩
      [sampleBoot "10.2".toList [3], sampleBoot "10.2".toList [3], sampleBoot "10.3".toList [4]] :=
  matched_of_meets emptyDigest _ _
    ⟨fun h => absurd h (by decide),
      fun _ => ⟨(sampleBoot "10.2".toList [3]).payload, rfl, fun _ => rfl, rfl, rfl⟩,
      fun h => absurd h (by decide), trivial⟩

/-- A bundle that is booted again after another one, and a bundle that was
    rebuilt with another image. -/
theorem matched_booted_again :
    ¬ Meets (Station.boot emptyDigest) (Matched emptyDigest) ⟨⟨⟨∅, none, none⟩, []⟩, none⟩
        [sampleBoot "10.2".toList [3], sampleBoot "10.3".toList [4], sampleBoot "10.2".toList [3]] ∧
      ¬ Meets (Station.boot emptyDigest) (Matched emptyDigest) ⟨⟨⟨∅, none, none⟩, []⟩, none⟩
        [sampleBoot "10.2".toList [3], sampleBoot "10.2".toList [4]] := by
  refine ⟨fun h => ?_, fun h => ?_⟩
  · exact absurd ((h.2.2.1 (by decide) (by decide) (by decide)).firmwares
      ["r600", "10.2", "image.bl7"]) (by decide)
  · exact absurd ((h.2.1 (by decide) (by decide) (by decide)).firmwares
      ["r600", "10.2", "image.bl7"]) (by decide)

end Zd1200
