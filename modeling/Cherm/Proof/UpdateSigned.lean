/-
**What an update installs.**

The signature of a release is over the bytes of its archive, and names neither a version nor a
platform. So the two binaries come from one archive that the project has signed, whatever the host
answers; which release that is, the host chooses.

* `installAll_files`: what the loop over the two names leaves in the directory.
* `selfUpdate_signed`: what is true after an update.
* `Ideal.replayed`: a host that answers with the archive of an older release.
-/

import Cherm.Update.Client

namespace ChermUpdate

open Cherm (Bytes utf8)
open GoText (runes)

/-- A release for a platform. -/
structure Release where
  version : String
  platform : String
  archive : Bytes

/-- A request leaves the directory as it is. -/
theorem httpGet_dir {host : Host} {url : String} {world : World} :
    (httpGet host url world).2.dir = world.dir := by
  unfold httpGet
  split
  · rfl
  · split <;> rfl

theorem httpGet_ok {host : Host} {url : String} {world after : World} {body : Bytes}
    (got : httpGet host url world = (.ok body, after)) :
    host world.asked url = .got 200 (.ok body) ∧ after.dir = world.dir := by
  have same : (httpGet host url world).2.dir = world.dir := httpGet_dir
  rw [got] at same
  refine ⟨?_, same⟩
  unfold httpGet at got
  split at got
  · cases got
  next status answer reply =>
  split at got
  · cases got
  next success =>
  obtain ⟨rfl, _⟩ := Prod.mk.inj got
  rw [reply, not_ne_iff.mp success]

theorem replaceBinary_ok {machine : Machine} {target : String} {data : Bytes}
    {world after : World} (replaced : replaceBinary machine target data world = (.ok (), after)) :
    after.dir = world.dir.put target ⟨data, 0o755⟩ := by
  unfold replaceBinary at replaced
  dsimp only at replaced
  split at replaced
  · cases replaced
  · cases replaced
  · split at replaced
    · cases replaced
    · rw [← (Prod.mk.inj replaced).2]

/-- **What the loop leaves**: the binaries of the names, and the other files. -/
theorem installAll_files {machine : Machine} {bins : Table String Bytes} {names : List String}
    (distinct : names.Nodup) {world after : World}
    (installed : installAll machine bins names world = (.ok (), after)) :
    (∀ name ∈ names, ∃ data, bins.get name = some data ∧
      after.dir.get name = some ⟨data, 0o755⟩) ∧
    ∀ name, name ∉ names → after.dir.get name = world.dir.get name := by
  induction names generalizing world with
  | nil =>
      obtain ⟨_, rfl⟩ := Attempt.pure_ok.mp installed
      exact ⟨fun _ member => absurd member List.not_mem_nil, fun _ _ => rfl⟩
  | cons first rest ih =>
      obtain ⟨isNew, distinct⟩ := List.nodup_cons.mp distinct
      rw [installAll] at installed
      cases has : bins.get first with
      | none =>
          rw [has] at installed
          cases installed
      | some data =>
      rw [has] at installed
      obtain ⟨_, mid, replaced, others⟩ := Attempt.bind_ok.mp installed
      have put := replaceBinary_ok (Attempt.mapError_ok.mp replaced)
      obtain ⟨each, frame⟩ := ih distinct others
      refine ⟨List.forall_mem_cons.mpr ⟨⟨data, has, ?_⟩, each⟩, fun name absent => ?_⟩
      · rw [frame first isNew, put, Table.get_put, if_pos rfl]
      · obtain ⟨different, absent⟩ := not_or.mp (mt List.mem_cons.mpr absent)
        rw [frame name absent, put, Table.get_put, if_neg different]

section

variable [Runtime]

/-- **No forgery**: what verifies under the release key is the archive of a release. -/
def OnlyReleasesVerify (releases : Set Release) : Prop :=
  ∀ pub data sig, decodeString releasePublicKeyB64.toList = some pub →
    Runtime.ed25519Verify pub data sig = true → ∃ release ∈ releases, release.archive = data

/-- The two binaries in the directory are those of the archive. -/
def InstalledFrom (archive : Bytes) (dir : Table String File) : Prop :=
  ∃ bins, extractBinaries archive = .ok bins ∧ ∀ name ∈ ["cherm", "cherm-core"],
    ∃ data, bins.get name = some data ∧ dir.get name = some ⟨data, 0o755⟩

/-! ### The parts -/

theorem verifyReleaseSig_ok {data : Bytes} {sigB64 : List Char}
    (verified : verifyReleaseSig data sigB64 = .ok ()) : ∃ pub sig,
      decodeString releasePublicKeyB64.toList = some pub ∧
      Runtime.ed25519Verify pub data sig = true := by
  unfold verifyReleaseSig at verified
  split at verified
  · cases verified
  next pub key =>
  split at verified
  · cases verified
  next sig _ =>
  split at verified
  · next verifies => exact ⟨pub, sig, (Option.filter_eq_some_iff.mp key).1, verifies⟩
  · cases verified

theorem latestClientVersion_ok {machine : Machine} {host : Host} {world after : World}
    {version : String} (latest : latestClientVersion machine host world = (.ok version, after)) :
    after.dir = world.dir ∧ ∃ body,
      host world.asked (updateBaseURL machine ++ "/version.json") = .got 200 (.ok body) ∧
      Runtime.unmarshal body = .ok version := by
  obtain ⟨body, _, got, rest⟩ := Attempt.bind_ok.mp latest
  obtain ⟨version', _, read, rest⟩ := Attempt.bind_ok.mp rest
  obtain ⟨is, rfl⟩ := Attempt.lift_ok.mp read
  obtain ⟨_, _, checked, rest⟩ := Attempt.bind_ok.mp rest
  obtain ⟨_, rfl⟩ := Attempt.check_ok.mp checked
  obtain ⟨rfl, rfl⟩ := Attempt.pure_ok.mp rest
  obtain ⟨answer, same⟩ := httpGet_ok got
  exact ⟨same, body, answer, is⟩

/-! ### The update -/

/-- What an update leaves in the directory, and where it has it from. -/
theorem installRelease_ok {releases : Set Release} (only : OnlyReleasesVerify releases)
    {machine : Machine} {host : Host} {platform latest : String} {world after : World}
    (installed : installRelease machine host platform latest world = (.ok (), after)) :
    (∃ release ∈ releases, InstalledFrom release.archive after.dir) ∧
      ∀ name, name ∉ ["cherm", "cherm-core"] → after.dir.get name = world.dir.get name := by
  unfold installRelease at installed
  obtain ⟨tarball, _, fetched, installed⟩ := Attempt.bind_ok.mp installed
  obtain ⟨sigB64, _, signature, installed⟩ := Attempt.bind_ok.mp installed
  obtain ⟨_, _, verified, installed⟩ := Attempt.bind_ok.mp installed
  obtain ⟨sidecar, _, asked, installed⟩ := Attempt.bind_ok.mp installed
  obtain ⟨_, _, checked, installed⟩ := Attempt.bind_ok.mp installed
  obtain ⟨_, _, executable, installed⟩ := Attempt.bind_ok.mp installed
  obtain ⟨bins, _, extracted, installed⟩ := Attempt.bind_ok.mp installed
  have fetched := (httpGet_ok (Attempt.mapError_ok.mp fetched)).2
  have signature := (httpGet_ok (Attempt.mapError_ok.mp signature)).2
  obtain ⟨isSigned, rfl⟩ := Attempt.lift_ok.mp (Attempt.mapError_ok.mp verified)
  obtain ⟨_, rfl⟩ := Prod.mk.inj asked
  obtain ⟨_, rfl⟩ := Attempt.check_ok.mp checked
  obtain ⟨_, rfl⟩ := Attempt.lift_ok.mp executable
  obtain ⟨inArchive, rfl⟩ := Attempt.lift_ok.mp extracted
  obtain ⟨pub, sig, key, verifies⟩ := verifyReleaseSig_ok isSigned
  obtain ⟨release, isRelease, archive⟩ := only pub tarball sig key verifies
  obtain ⟨binaries, others⟩ := installAll_files (by decide) installed
  refine ⟨⟨release, isRelease, bins, by rw [archive, inArchive], binaries⟩, fun name absent => ?_⟩
  rw [others name absent, httpGet_dir, signature, fetched]

/-- **An update comes from one signed release.** Its version is what the host says; unless forced,
that is newer than the client's. -/
theorem selfUpdate_signed {releases : Set Release} (only : OnlyReleasesVerify releases)
    {machine : Machine} {host : Host} {force : Bool} {world after : World} {version : String}
    (updated : selfUpdate machine host force world = (.ok version, after)) :
    (∃ release ∈ releases, InstalledFrom release.archive after.dir) ∧
    (∃ body, host world.asked (updateBaseURL machine ++ "/version.json") = .got 200 (.ok body) ∧
      Runtime.unmarshal body = .ok version) ∧
    (force = false → isNewerVersion version clientVersion = true) ∧
    ∀ name, name ∉ ["cherm", "cherm-core"] → after.dir.get name = world.dir.get name := by
  unfold selfUpdate at updated
  obtain ⟨platform, _, machines, updated⟩ := Attempt.bind_ok.mp updated
  obtain ⟨latest, _, said, updated⟩ := Attempt.bind_ok.mp updated
  obtain ⟨_, _, newer, updated⟩ := Attempt.bind_ok.mp updated
  obtain ⟨_, _, installed, returned⟩ := Attempt.bind_ok.mp updated
  obtain ⟨_, rfl⟩ := Attempt.lift_ok.mp (Attempt.mapError_ok.mp machines)
  obtain ⟨same, said⟩ := latestClientVersion_ok (Attempt.mapError_ok.mp said)
  obtain ⟨isNewer, rfl⟩ := Attempt.check_ok.mp newer
  obtain ⟨rfl, rfl⟩ := Attempt.pure_ok.mp returned
  obtain ⟨binaries, others⟩ := installRelease_ok only (Attempt.mapError_ok.mp installed)
  refine ⟨binaries, said, fun notForced => ?_, fun name absent => ?_⟩
  · rw [notForced, Bool.false_or] at isNewer
    exact isNewer
  · rw [others name absent, same]

end

namespace Ideal

/-- A small archive with two binaries of one byte each. -/
def oldRelease : Release where
  version := "0.1.0"
  platform := "linux-x64"
  archive := [
    31, 139, 8, 0, 0, 0, 0, 0, 2, 3, 75, 206, 72, 45, 202, 101, 160, 45, 48, 0, 2, 115, 83, 83,
    48, 13, 4, 232, 52, 16, 24, 34, 177, 65, 226, 102, 230, 102, 6, 12, 10, 6, 12, 116, 0, 165,
    197, 37, 137, 69, 64, 43, 25, 70, 38, 112, 100, 24, 5, 35, 25, 36, 131, 242, 191, 110, 114,
    126, 81, 234, 96, 202, 255, 230, 230, 6, 102, 163, 249, 159, 30, 32, 113, 52, 11, 140, 130,
    81, 48, 10, 70, 193, 136, 4, 0, 28, 119, 247, 150, 0, 12, 0, 0]

/-- The current release. -/
def newRelease : Release where
  version := "0.2.0"
  platform := "linux-x64"
  archive := [
    31, 139, 8, 0, 0, 0, 0, 0, 2, 3, 75, 206, 72, 45, 202, 101, 160, 45, 48, 0, 2, 115, 83, 83,
    48, 13, 4, 232, 52, 16, 24, 34, 177, 65, 226, 102, 230, 102, 6, 12, 10, 6, 12, 116, 0, 165,
    197, 37, 137, 69, 64, 43, 25, 70, 38, 112, 98, 24, 5, 35, 25, 36, 131, 242, 191, 110, 114,
    126, 81, 234, 96, 202, 255, 230, 230, 6, 102, 163, 249, 159, 30, 32, 105, 52, 11, 140, 130,
    81, 48, 10, 70, 193, 136, 4, 0, 191, 156, 111, 23, 0, 12, 0, 0]

/-- What the project has signed them with. -/
def oldSignature : Bytes := List.replicate 64 1

/-- Its signature. -/
def newSignature : Bytes := List.replicate 64 2

/-- What names its version. -/
def versionJson : String := "\x7b\"client\":\x7b\"version\":\"0.2.0\"\x7d\x7d"

/-- A runtime in which just the two releases verify. -/
abbrev runtime : Runtime where
  ed25519Verify _ data sig := (data = oldRelease.archive && sig = oldSignature) ||
    (data = newRelease.archive && sig = newSignature)
  sha256 _ := []
  unmarshal body := if body = utf8 versionJson then .ok "0.2.0" else .error "invalid character"
  readTarGz data :=
    if data = oldRelease.archive then .ok ⟨[("cherm", .ok [65]), ("cherm-core", .ok [97])], none⟩
    else if data = newRelease.archive then
      .ok ⟨[("cherm", .ok [66]), ("cherm-core", .ok [98])], none⟩
    else .error "gzip: invalid header"
  base name := String.ofList (name.toList.reverse.takeWhile (· ≠ '/')).reverse

attribute [local instance] runtime

/-- The releases that were signed. -/
def releases : Set Release := {oldRelease, newRelease}

theorem onlyReleases : OnlyReleasesVerify releases := by
  intro pub data sig _ verifies
  rcases Bool.or_eq_true_iff.mp verifies with old | new
  · obtain ⟨same, _⟩ := Bool.and_eq_true_iff.mp old
    exact ⟨oldRelease, .inl rfl, (of_decide_eq_true same).symm⟩
  · obtain ⟨same, _⟩ := Bool.and_eq_true_iff.mp new
    exact ⟨newRelease, .inr rfl, (of_decide_eq_true same).symm⟩

/-- A computer that runs Linux. -/
def machine : Machine where
  goos := "linux"
  goarch := "amd64"
  chermBaseURL := none
  random _ := "1"
  fault _ := none

/-- A host with one version, and this archive and signature for it. -/
def serves (archive sig : Bytes) : Host := fun _ url =>
  let artifact := "https://cherm.chat/releases/client/0.2.0/cherm-client-linux-x64.tar.gz"
  if url = "https://cherm.chat/version.json" then .got 200 (.ok (utf8 versionJson))
  else if url = artifact then .got 200 (.ok archive)
  else if url = artifact ++ ".sig" then .got 200 (.ok (utf8 (Base64.encode sig)))
  else .got 404 (.ok [])

/-- The version, and the two files. -/
def resultOf : Except UpdateError String × World → Option (String × Option File × Option File)
  | (.ok version, after) => some (version, after.dir.get "cherm", after.dir.get "cherm-core")
  | _ => none

theorem of_resultOf {ran : Except UpdateError String × World} {version : String}
    {cherm core : Option File} (is : resultOf ran = some (version, cherm, core)) :
    ran = (.ok version, ran.2) ∧ ran.2.dir.get "cherm" = cherm ∧
      ran.2.dir.get "cherm-core" = core := by
  unfold resultOf at is
  split at is
  · obtain ⟨rfl, binaries⟩ := Prod.mk.inj (Option.some.inj is)
    obtain ⟨rfl, rfl⟩ := Prod.mk.inj binaries
    exact ⟨rfl, rfl, rfl⟩
  · cases is

theorem new_installed : resultOf (selfUpdate machine (serves newRelease.archive newSignature) false
    ⟨[], ∅⟩) = some ("0.2.0", some ⟨[66], 0o755⟩, some ⟨[98], 0o755⟩) := by
  decide +kernel

/-- The update of an honest host. -/
theorem new_signed :
    let ran := selfUpdate machine (serves newRelease.archive newSignature) false ⟨[], ∅⟩
    (∃ release ∈ releases, InstalledFrom release.archive ran.2.dir) ∧
    (∃ body, serves newRelease.archive newSignature []
        (updateBaseURL machine ++ "/version.json") = .got 200 (.ok body) ∧
      runtime.unmarshal body = .ok "0.2.0") ∧
    (false = false → isNewerVersion "0.2.0" clientVersion = true) ∧
    ∀ name, name ∉ ["cherm", "cherm-core"] → ran.2.dir.get name =
      (∅ : Table String File).get name :=
  selfUpdate_signed onlyReleases (of_resultOf new_installed).1

theorem old_installed : resultOf (selfUpdate machine (serves oldRelease.archive oldSignature) false
    ⟨[], ∅⟩) = some ("0.2.0", some ⟨[65], 0o755⟩, some ⟨[97], 0o755⟩) := by
  decide +kernel

/-- The two binaries of an archive. -/
def binariesOf (archive : Bytes) : Option (Option Bytes × Option Bytes) :=
  (extractBinaries archive).toOption.map fun bins => (bins.get "cherm", bins.get "cherm-core")

theorem old_binaries : binariesOf oldRelease.archive = some (some [65], some [97]) := by
  decide +kernel

theorem new_binaries : binariesOf newRelease.archive = some (some [66], some [98]) := by
  decide +kernel

theorem of_binariesOf {archive : Bytes} {cherm core : Option Bytes}
    (is : binariesOf archive = some (cherm, core)) : ∃ bins, extractBinaries archive = .ok bins ∧
      bins.get "cherm" = cherm ∧ bins.get "cherm-core" = core := by
  unfold binariesOf at is
  obtain ⟨bins, extracted, same⟩ := Option.map_eq_some_iff.mp is
  obtain ⟨rfl, rfl⟩ := Prod.mk.inj same
  cases ran : extractBinaries archive with
  | error e =>
      rw [ran] at extracted
      cases extracted
  | ok found =>
      rw [ran] at extracted
      obtain rfl := Option.some.inj extracted
      exact ⟨found, rfl, rfl, rfl⟩

/-- **An older release under a newer version**: the host answers with the archive and the signature
of release 0.1.0, and the client installs it as 0.2.0. -/
theorem replayed : ∃ after,
    OnlyReleasesVerify releases ∧
    selfUpdate machine (serves oldRelease.archive oldSignature) false ⟨[], ∅⟩ =
      (.ok "0.2.0", after) ∧
    InstalledFrom oldRelease.archive after.dir ∧
    ¬ ∃ release ∈ releases, release.version = "0.2.0" ∧ release.platform = "linux-x64" ∧
      InstalledFrom release.archive after.dir := by
  have ran := of_resultOf old_installed
  obtain ⟨oldBins, fromOld, oldCherm, oldCore⟩ := of_binariesOf old_binaries
  obtain ⟨newBins, fromNew, newCherm, _⟩ := of_binariesOf new_binaries
  generalize selfUpdate machine (serves oldRelease.archive oldSignature) false ⟨[], ∅⟩ = result
    at ran ⊢
  obtain ⟨updated, cherm, core⟩ := ran
  refine ⟨result.2, onlyReleases, updated, ⟨oldBins, fromOld, ?_⟩, ?_⟩
  · exact List.forall_mem_cons.mpr ⟨⟨[65], oldCherm, cherm⟩,
      List.forall_mem_singleton.mpr ⟨[97], oldCore, core⟩⟩
  · rintro ⟨release, member, version, _, bins, extracted, installed⟩
    rcases member with isOld | isNew
    · rw [isOld] at version
      exact absurd version (by decide)
    · rw [isNew] at extracted
      obtain rfl := Except.ok.inj (fromNew.symm.trans extracted)
      obtain ⟨data, is, there⟩ := installed "cherm" List.mem_cons_self
      obtain rfl := Option.some.inj (newCherm.symm.trans is)
      exact absurd (Option.some.inj (cherm.symm.trans there)) (by decide)

end Ideal

end ChermUpdate
