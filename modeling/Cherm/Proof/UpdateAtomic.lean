/-
**Both binaries or none.**

The updater replaces `cherm` and then `cherm-core`. Each replacement is all or nothing, the two
together are not: what stops the second one leaves the first.

* `Passes`: the host's answers that come through every check, with the binaries in the archive.
* `Torn`: `cherm` is replaced, and `cherm-core` cannot be.
* `selfUpdate_allOrNothing_iff`: an update is all or nothing exactly if no such archive is torn.
-/

import Cherm.Proof.UpdateSigned

namespace ChermUpdate

open Cherm (Bytes utf8)
open GoText (runes)

/-! ### Replacing a file -/

/-- Nothing is in the way of a new content for a file. -/
structure Replaceable (machine : Machine) (target : String) (dir : Table String File) : Prop where
  create : machine.fault (.createTemp target) = none
  write : machine.fault (.write target) = none
  close : machine.fault (.close target) = none
  chmod : machine.fault (.chmod target) = none
  rename : machine.fault (.rename target) = none
  free : dir.get (tempName machine target) = none

variable {machine : Machine} {target : String} {data : Bytes} {world : World}

theorem replaceBinary_replaces (free : Replaceable machine target world.dir) :
    replaceBinary machine target data world =
      (.ok (), { world with dir := world.dir.put target ⟨data, 0o755⟩ }) := by
  unfold replaceBinary
  dsimp only
  rw [free.create, free.free, free.write, free.close, free.chmod, free.rename]
  rfl

/-- **A replacement that fails changes nothing.** -/
theorem replaceBinary_stops (taken : ¬ Replaceable machine target world.dir) :
    ∃ e, replaceBinary machine target data world = (.error e, world) := by
  unfold replaceBinary
  dsimp only
  split
  · exact ⟨_, rfl⟩
  · exact ⟨_, rfl⟩
  · next create free =>
    split
    · exact ⟨_, rfl⟩
    · next none =>
      refine absurd ?_ taken
      simp only [Option.orElse_eq_orElse, Option.orElse_eq_or, Option.or_eq_none_iff] at none
      exact ⟨create, none.1, none.2.1, none.2.2.1, none.2.2.2, free⟩

/-- A temporary name is none of the binaries'. -/
theorem tempName_ne (machine : Machine) (target : String) : tempName machine target ≠ "cherm" := by
  intro same
  have lists := congrArg String.toList same
  rw [tempName, String.toList_append] at lists
  cases lists

/-! ### The two binaries -/

/-- `cherm` is replaced by another content, and then `cherm-core` is missing or cannot be replaced. -/
structure Torn (machine : Machine) (bins : Table String Bytes) (dir : Table String File) : Prop where
  first : ∃ data, bins.get "cherm" = some data ∧ Replaceable machine "cherm" dir ∧
    dir.get "cherm" ≠ some ⟨data, 0o755⟩
  second : bins.get "cherm-core" = none ∨ ¬ Replaceable machine "cherm-core" dir

/-- The binaries of a directory. -/
def binaries (dir : Table String File) : List (Option File) :=
  ["cherm", "cherm-core"].map dir.get

/-- Replacing `cherm` is in the way of nothing. -/
theorem replaceable_put {dir : Table String File} {file : File} :
    Replaceable machine target (dir.put "cherm" file) ↔ Replaceable machine target dir := by
  have same : (dir.put "cherm" file).get (tempName machine target) =
      dir.get (tempName machine target) := by
    rw [Table.get_put, if_neg (tempName_ne machine target)]
  constructor
  · intro free
    exact { free with free := same.symm.trans free.free }
  · intro free
    exact { free with free := same.trans free.free }

theorem installAll_missing {bins : Table String Bytes} {name : String} {rest : List String}
    (missing : bins.get name = none) :
    ∃ e, installAll machine bins (name :: rest) world = (.error e, world) := by
  rw [installAll, missing]
  exact ⟨_, rfl⟩

theorem installAll_taken {bins : Table String Bytes} {name : String} {rest : List String}
    (has : bins.get name = some data) (taken : ¬ Replaceable machine name world.dir) :
    ∃ e, installAll machine bins (name :: rest) world = (.error e, world) := by
  have one : ∃ e, replaceBinary machine name data world = (.error e, world) :=
    replaceBinary_stops taken
  obtain ⟨e, stops⟩ := one
  have named : Attempt.mapError (fun e => "install " ++ name ++ ": " ++ e)
      (replaceBinary machine name data) world =
        (.error ("install " ++ name ++ ": " ++ e), world) := by
    rw [Attempt.mapError_apply, stops]
    rfl
  rw [installAll, has]
  exact ⟨_, Attempt.bind_of_error named⟩

theorem installAll_replaces {bins : Table String Bytes} {name : String} {rest : List String}
    (has : bins.get name = some data) (free : Replaceable machine name world.dir) :
    installAll machine bins (name :: rest) world =
      installAll machine bins rest { world with dir := world.dir.put name ⟨data, 0o755⟩ } := by
  rw [installAll, has]
  exact Attempt.bind_of_ok (Attempt.mapError_ok.mpr (replaceBinary_replaces free))

/-- **The loop leaves one binary without the other exactly if the archive is torn.** -/
theorem installAll_torn (bins : Table String Bytes) (world : World) :
    (∃ e after, installAll machine bins ["cherm", "cherm-core"] world = (.error e, after) ∧
      binaries after.dir ≠ binaries world.dir) ↔ Torn machine bins world.dir := by
  cases has : bins.get "cherm" with
  | none =>
      have stops : ∃ e, installAll machine bins ["cherm", "cherm-core"] world =
          (.error e, world) := installAll_missing has
      obtain ⟨e, stops⟩ := stops
      refine iff_of_false ?_ fun torn => ?_
      · rintro ⟨_, _, ran, changed⟩
        rw [stops] at ran
        exact changed (by rw [(Prod.mk.inj ran).2])
      · obtain ⟨data, is, _⟩ := torn.first
        rw [has] at is
        cases is
  | some data =>
  by_cases free : Replaceable machine "cherm" world.dir
  · rw [installAll_replaces has free]
    generalize isMid : ({ world with dir := world.dir.put "cherm" ⟨data, 0o755⟩ } : World) = mid
    have dirMid : mid.dir = world.dir.put "cherm" ⟨data, 0o755⟩ := by rw [← isMid]
    have stays : binaries mid.dir = binaries world.dir ↔
        world.dir.get "cherm" = some ⟨data, 0o755⟩ := by
      simp [binaries, dirMid, Table.get_put, eq_comm]
    -- whether the second one goes through does not depend on the first
    by_cases second : bins.get "cherm-core" = none ∨ ¬ Replaceable machine "cherm-core" world.dir
    · have stops : ∃ e, installAll machine bins ["cherm-core"] mid = (.error e, mid) := by
        rcases second with missing | taken
        · exact installAll_missing missing
        · cases core : bins.get "cherm-core" with
          | none => exact installAll_missing core
          | some content =>
              refine installAll_taken core fun free => taken ?_
              rw [dirMid] at free
              exact replaceable_put.mp free
      obtain ⟨e, stops⟩ := stops
      rw [stops]
      constructor
      · rintro ⟨_, _, ran, changed⟩
        obtain ⟨_, rfl⟩ := Prod.mk.inj ran
        exact ⟨⟨data, has, free, mt stays.mpr changed⟩, second⟩
      · intro torn
        obtain ⟨_, is, _, other⟩ := torn.first
        obtain rfl := Option.some.inj (has.symm.trans is)
        exact ⟨e, mid, rfl, mt stays.mp other⟩
    · obtain ⟨present, freeCore⟩ := not_or.mp second
      obtain ⟨content, core⟩ := Option.ne_none_iff_exists'.mp present
      have freeMid : Replaceable machine "cherm-core" mid.dir := by
        rw [dirMid]
        exact replaceable_put.mpr (not_not.mp freeCore)
      rw [installAll_replaces core freeMid]
      refine iff_of_false ?_ fun torn => second torn.second
      rintro ⟨_, _, ran, _⟩
      cases (Prod.mk.inj ran).1
  · have stops : ∃ e, installAll machine bins ["cherm", "cherm-core"] world =
        (.error e, world) := installAll_taken has free
    obtain ⟨e, stops⟩ := stops
    refine iff_of_false ?_ fun torn => ?_
    · rintro ⟨_, _, ran, changed⟩
      rw [stops] at ran
      exact changed (by rw [(Prod.mk.inj ran).2])
    · obtain ⟨_, _, replaceable, _⟩ := torn.first
      exact free replaceable

/-! ### Requests and steps -/

/-- A request notes what was asked for. -/
theorem httpGet_asked {host : Host} (url : String) :
    (httpGet host url world).2 = { world with asked := world.asked ++ [url] } := by
  unfold httpGet
  split
  · rfl
  · split <;> rfl

theorem httpGet_got {host : Host} {url : String} {body : Bytes} : httpGet host url world =
    (.ok body, { world with asked := world.asked ++ [url] }) ↔
      host world.asked url = .got 200 (.ok body) := by
  constructor
  · exact fun got => (httpGet_ok got).1
  · intro got
    unfold httpGet
    rw [got]
    rfl

theorem httpGet_answer {host : Host} {url : String} {body : Bytes} {after : World}
    (got : httpGet host url world = (.ok body, after)) :
    host world.asked url = .got 200 (.ok body) ∧ after.asked = world.asked ++ [url] := by
  refine ⟨(httpGet_ok got).1, ?_⟩
  have noted : (httpGet host url world).2 = { world with asked := world.asked ++ [url] } :=
    httpGet_asked url
  rw [got] at noted
  exact congrArg World.asked noted

/-- A failure that leaves a directory as it was. -/
def Stops {ε α : Type} (dir : Table String File) (ran : Except ε α × World) : Prop :=
  (∃ e, ran.1 = .error e) ∧ ran.2.dir = dir

/-- A sequence stops, or its first step comes to a result. -/
theorem stops_or {ε α β : Type} {found : Prop} {dir : Table String File} {first : Step ε α}
    {next : α → Step ε β} (same : (first world).2.dir = dir)
    (goes : ∀ result mid, first world = (.ok result, mid) → mid.dir = dir →
      found ∨ Stops dir (next result mid)) : found ∨ Stops dir ((first >>= next) world) := by
  refine Attempt.bind_cases (P := fun ran => found ∨ Stops dir ran) (fun e mid ran => ?_)
    fun result mid ran => ?_
  · rw [ran] at same
    exact .inr ⟨⟨e, rfl⟩, same⟩
  · rw [ran] at same
    exact goes result mid ran same

theorem mapError_dir {ε ε' α : Type} {rename : ε → ε'} {step : Step ε α} :
    (Attempt.mapError rename step world).2.dir = (step world).2.dir := by
  rw [Attempt.mapError_apply]

theorem bind_dir {ε α β : Type} {dir : Table String File} {first : Step ε α} {next : α → Step ε β}
    (same : (first world).2.dir = dir)
    (rest : ∀ result mid, mid.dir = dir → (next result mid).2.dir = dir) :
    ((first >>= next) world).2.dir = dir := by
  refine Attempt.bind_cases (P := fun ran : Except ε β × World => ran.2.dir = dir)
    (fun e mid ran => ?_) fun result mid ran => ?_
  · rw [ran] at same
    exact same
  · rw [ran] at same
    exact rest result mid same

section

variable [Runtime]

/-! ### What the host answers -/

/-- What an update works with, where nothing fails before the installation. -/
structure Answers where
  platform : String
  body : Bytes
  latest : String
  tarball : Bytes
  sigB64 : Bytes
  bins : Table String Bytes

def versionURL (machine : Machine) : String := updateBaseURL machine ++ "/version.json"

def Answers.url (a : Answers) (machine : Machine) : String :=
  updateBaseURL machine ++ "/releases/client/" ++ a.latest ++ "/" ++ artifactName a.platform

/-- The host answers so for the archive, and every check lets it pass. -/
structure Delivers (machine : Machine) (host : Host) (asked : List String) (a : Answers) : Prop where
  archive : host asked (a.url machine) = .got 200 (.ok a.tarball)
  signature : host (asked ++ [a.url machine]) (a.url machine ++ ".sig") = .got 200 (.ok a.sigB64)
  verified : verifyReleaseSig a.tarball (runes a.sigB64) = .ok ()
  checksum : ∀ raw, host (asked ++ [a.url machine] ++ [a.url machine ++ ".sig"])
    (a.url machine ++ ".sha256") = .got 200 (.ok raw) → checksumHolds a.tarball (.ok raw) = true
  executable : machine.fault .executable = none
  binaries : extractBinaries a.tarball = .ok a.bins

/-- The host announces a version so, and delivers it. -/
structure Passes (machine : Machine) (host : Host) (force : Bool) (asked : List String)
    (a : Answers) : Prop where
  platform : updatePlatform machine = .ok a.platform
  version : host asked (versionURL machine) = .got 200 (.ok a.body)
  announced : Runtime.unmarshal a.body = .ok a.latest
  named : a.latest ≠ ""
  newer : (force || isNewerVersion a.latest clientVersion) = true
  delivers : Delivers machine host (asked ++ [versionURL machine]) a

variable {machine : Machine} {host : Host} {force : Bool} {world : World}

/-- The sidecar counts only where there is one. -/
theorem checksumHolds_iff {url : String} {tarball : Bytes} :
    checksumHolds tarball (httpGet host url world).1 = true ↔
      ∀ raw, host world.asked url = .got 200 (.ok raw) → checksumHolds tarball (.ok raw) = true := by
  constructor
  · intro holds raw got
    rwa [httpGet_got.mpr got] at holds
  · intro holds
    rcases ran : httpGet host url world with ⟨answer, after⟩
    cases answer with
    | error e => rfl
    | ok raw => exact holds raw (httpGet_ok ran).1

/-- How an update that has come so far goes on. -/
def finish (machine : Machine) (a : Answers) : Step UpdateError String := do
  Attempt.mapError .failed (installAll machine a.bins ["cherm", "cherm-core"])
  return a.latest

/-- Where every check is passed, the installation begins. -/
theorem installRelease_delivers {a : Answers} (delivers : Delivers machine host world.asked a) :
    ∃ mid : World, mid.dir = world.dir ∧
      installRelease machine host a.platform a.latest world =
        installAll machine a.bins ["cherm", "cherm-core"] mid := by
  have archive : httpGet host (a.url machine) world =
      (.ok a.tarball, { world with asked := world.asked ++ [a.url machine] }) :=
    httpGet_got.mpr delivers.archive
  generalize isFirst : ({ world with asked := world.asked ++ [a.url machine] } : World) = first
    at archive
  have firstAsked : first.asked = world.asked ++ [a.url machine] := by rw [← isFirst]
  have signature : httpGet host (a.url machine ++ ".sig") first =
      (.ok a.sigB64, { first with asked := first.asked ++ [a.url machine ++ ".sig"] }) := by
    rw [httpGet_got, firstAsked]
    exact delivers.signature
  generalize isSecond : ({ first with asked := first.asked ++ [a.url machine ++ ".sig"] } : World) =
    second at signature
  have secondAsked : second.asked = world.asked ++ [a.url machine] ++ [a.url machine ++ ".sig"] := by
    rw [← isSecond, firstAsked]
  have sidecar : Attempt.caught (httpGet host (a.url machine ++ ".sha256")) second =
      (.ok (httpGet host (a.url machine ++ ".sha256") second).1,
        { second with asked := second.asked ++ [a.url machine ++ ".sha256"] }) := by
    rw [Attempt.caught, httpGet_asked]
  have checksum : checksumHolds a.tarball (httpGet host (a.url machine ++ ".sha256") second).1 =
      true := by
    rw [checksumHolds_iff, secondAsked]
    exact delivers.checksum
  refine ⟨{ second with asked := second.asked ++ [a.url machine ++ ".sha256"] }, ?_, ?_⟩
  · rw [← isSecond, ← isFirst]
  · unfold installRelease
    refine (Attempt.bind_of_ok (Attempt.mapError_ok.mpr archive)).trans ?_
    refine (Attempt.bind_of_ok (Attempt.mapError_ok.mpr signature)).trans ?_
    refine (Attempt.bind_of_ok (Attempt.mapError_ok.mpr
      (Attempt.lift_of_ok delivers.verified))).trans ?_
    refine (Attempt.bind_of_ok sidecar).trans ?_
    refine (Attempt.bind_of_ok (Attempt.check_of_true checksum)).trans ?_
    rw [delivers.executable]
    refine (Attempt.bind_of_ok (Attempt.lift_of_ok rfl)).trans ?_
    exact Attempt.bind_of_ok (Attempt.lift_of_ok delivers.binaries)

theorem selfUpdate_passes {a : Answers} (passes : Passes machine host force world.asked a) :
    ∃ mid : World, mid.dir = world.dir ∧
      selfUpdate machine host force world = finish machine a mid := by
  have version : httpGet host (versionURL machine) world =
      (.ok a.body, { world with asked := world.asked ++ [versionURL machine] }) :=
    httpGet_got.mpr passes.version
  have latest : latestClientVersion machine host world =
      (.ok a.latest, { world with asked := world.asked ++ [versionURL machine] }) := by
    refine (Attempt.bind_of_ok version).trans ?_
    refine (Attempt.bind_of_ok (Attempt.lift_of_ok passes.announced)).trans ?_
    exact Attempt.bind_of_ok (Attempt.check_of_true (decide_eq_true passes.named))
  generalize isMid : ({ world with asked := world.asked ++ [versionURL machine] } : World) = mid
    at latest
  have isAsked : mid.asked = world.asked ++ [versionURL machine] := by rw [← isMid]
  obtain ⟨late, same, release⟩ := installRelease_delivers (isAsked ▸ passes.delivers)
  refine ⟨late, by rw [same, ← isMid], ?_⟩
  unfold selfUpdate
  refine (Attempt.bind_of_ok (Attempt.mapError_ok.mpr
    (Attempt.lift_of_ok passes.platform))).trans ?_
  refine (Attempt.bind_of_ok (Attempt.mapError_ok.mpr latest)).trans ?_
  refine (Attempt.bind_of_ok (Attempt.check_of_true passes.newer)).trans ?_
  refine Attempt.bind_congr ?_
  rw [Attempt.mapError_apply, Attempt.mapError_apply, release]

theorem installRelease_stops (platform latest : String) (body : Bytes) :
    (∃ tarball sigB64 bins,
        Delivers machine host world.asked ⟨platform, body, latest, tarball, sigB64, bins⟩) ∨
      Stops world.dir (installRelease machine host platform latest world) := by
  unfold installRelease
  refine stops_or (mapError_dir.trans httpGet_dir) fun tarball first archive dirFirst => ?_
  obtain ⟨archive, firstAsked⟩ := httpGet_answer (Attempt.mapError_ok.mp archive)
  refine stops_or (mapError_dir.trans (httpGet_dir.trans dirFirst))
    fun sigB64 second signature dirSecond => ?_
  obtain ⟨signature, secondAsked⟩ := httpGet_answer (Attempt.mapError_ok.mp signature)
  refine stops_or (mapError_dir.trans dirSecond) fun _ _ verifies _ => ?_
  obtain ⟨verified, rfl⟩ := Attempt.lift_ok.mp (Attempt.mapError_ok.mp verifies)
  refine stops_or (httpGet_dir.trans dirSecond) fun sidecar third asked dirThird => ?_
  obtain ⟨is, rfl⟩ := Prod.mk.inj asked
  obtain rfl := Except.ok.inj is
  refine stops_or (by rw [Attempt.check_state, dirThird]) fun _ _ checked _ => ?_
  obtain ⟨checksum, rfl⟩ := Attempt.check_ok.mp checked
  refine stops_or dirThird fun _ _ located _ => ?_
  obtain ⟨executable, rfl⟩ := Attempt.lift_ok.mp located
  refine stops_or dirThird fun bins _ inArchive _ => .inl ?_
  obtain ⟨extracted, rfl⟩ := Attempt.lift_ok.mp inArchive
  rw [firstAsked] at signature secondAsked
  rw [checksumHolds_iff, secondAsked] at checksum
  refine ⟨tarball, sigB64, bins, archive, signature, verified, checksum, ?_, extracted⟩
  split at executable
  · cases executable
  · next runs => exact runs

theorem latestClientVersion_dir :
    (latestClientVersion machine host world).2.dir = world.dir :=
  bind_dir httpGet_dir fun _ _ first => bind_dir first fun _ _ second =>
    bind_dir (by rw [Attempt.check_state, second]) fun _ _ third => third

theorem latestClientVersion_answer {latest : String} {after : World}
    (said : latestClientVersion machine host world = (.ok latest, after)) :
    ∃ body, host world.asked (versionURL machine) = .got 200 (.ok body) ∧
      Runtime.unmarshal body = .ok latest ∧ latest ≠ "" ∧
      after.asked = world.asked ++ [versionURL machine] := by
  obtain ⟨body, mid, got, rest⟩ := Attempt.bind_ok.mp said
  obtain ⟨version, midAsked⟩ := httpGet_answer got
  obtain ⟨found, _, read, rest⟩ := Attempt.bind_ok.mp rest
  obtain ⟨announced, rfl⟩ := Attempt.lift_ok.mp read
  obtain ⟨_, _, checked, rest⟩ := Attempt.bind_ok.mp rest
  obtain ⟨named, rfl⟩ := Attempt.check_ok.mp checked
  obtain ⟨rfl, rfl⟩ := Attempt.pure_ok.mp rest
  exact ⟨body, version, announced, of_decide_eq_true named, midAsked⟩

/-- **An update installs what passes every check, or stops before it installs anything.** -/
theorem selfUpdate_stops : (∃ a, Passes machine host force world.asked a) ∨
    Stops world.dir (selfUpdate machine host force world) := by
  unfold selfUpdate
  refine stops_or mapError_dir fun platform _ known _ => ?_
  obtain ⟨machines, rfl⟩ := Attempt.lift_ok.mp (Attempt.mapError_ok.mp known)
  refine stops_or (mapError_dir.trans latestClientVersion_dir) fun latest mid said dirMid => ?_
  obtain ⟨body, version, announced, named, midAsked⟩ :=
    latestClientVersion_answer (Attempt.mapError_ok.mp said)
  refine stops_or (by rw [Attempt.check_state, dirMid]) fun _ _ checked _ => ?_
  obtain ⟨newer, rfl⟩ := Attempt.check_ok.mp checked
  rcases installRelease_stops platform latest body with
    ⟨tarball, sigB64, bins, delivers⟩ | ⟨⟨e, fails⟩, same⟩
  · exact .inl ⟨⟨platform, body, latest, tarball, sigB64, bins⟩, machines, version, announced,
      named, newer, midAsked ▸ delivers⟩
  · have ran : Attempt.mapError UpdateError.failed (installRelease machine host platform latest)
        mid = (.error (.failed e), (installRelease machine host platform latest mid).2) := by
      rw [Attempt.mapError_apply, fails]
      rfl
    refine .inr ?_
    rw [Attempt.bind_of_error ran]
    exact ⟨⟨_, rfl⟩, same.trans dirMid⟩

/-! ### All or nothing -/

/-- Both binaries are as they were after an error, and from one verified archive after a success. -/
def AllOrNothing (before : Table String File) (ran : Except UpdateError String × World) : Prop :=
  match ran.1 with
  | .error _ => binaries ran.2.dir = binaries before
  | .ok _ => ∃ archive sigB64, verifyReleaseSig archive sigB64 = .ok () ∧
      InstalledFrom archive ran.2.dir

/-- **An update is all or nothing exactly if it meets no torn archive**: none that passes every check
and has a `cherm` that replaces another one, while its `cherm-core` is missing or cannot replace
the installed one. -/
theorem selfUpdate_allOrNothing_iff (machine : Machine) (host : Host) (force : Bool) (world : World) :
    AllOrNothing world.dir (selfUpdate machine host force world) ↔
      ∀ a, Passes machine host force world.asked a → ¬ Torn machine a.bins world.dir := by
  constructor
  · intro whole a passes torn
    obtain ⟨mid, same, ran⟩ := selfUpdate_passes passes
    obtain ⟨e, after, fails, changed⟩ := (installAll_torn a.bins mid).mpr (same.symm ▸ torn)
    have renamed : Attempt.mapError UpdateError.failed
        (installAll machine a.bins ["cherm", "cherm-core"]) mid = (.error (.failed e), after) := by
      rw [Attempt.mapError_apply, fails]
      rfl
    rw [ran, finish, Attempt.bind_of_error renamed] at whole
    exact changed (whole.trans (congrArg binaries same.symm))
  · intro untorn
    have outcome : (∃ a, Passes machine host force world.asked a) ∨
        Stops world.dir (selfUpdate machine host force world) := selfUpdate_stops
    rcases outcome with ⟨a, passes⟩ | ⟨⟨e, fails⟩, same⟩
    · obtain ⟨mid, same, ran⟩ := selfUpdate_passes passes
      rw [ran]
      rcases installed : installAll machine a.bins ["cherm", "cherm-core"] mid with ⟨result, after⟩
      cases result with
      | error e =>
          have renamed : Attempt.mapError UpdateError.failed
              (installAll machine a.bins ["cherm", "cherm-core"]) mid =
                (.error (.failed e), after) := by
            rw [Attempt.mapError_apply, installed]
            rfl
          rw [finish, Attempt.bind_of_error renamed]
          by_contra changed
          refine untorn a passes (same ▸ (installAll_torn a.bins mid).mp ⟨e, after, installed, ?_⟩)
          exact fun equal => changed (equal.trans (congrArg binaries same))
      | ok done =>
          rw [finish, Attempt.bind_of_ok (Attempt.mapError_ok.mpr installed)]
          exact ⟨a.tarball, _, passes.delivers.verified, a.bins, passes.delivers.binaries,
            (installAll_files (by decide) installed).1⟩
    · unfold AllOrNothing
      rw [fails]
      exact congrArg binaries same

end

namespace Ideal

attribute [local instance] runtime

/-- A machine where the second binary cannot be replaced. -/
def busy : Machine where
  goos := "linux"
  goarch := "amd64"
  chermBaseURL := none
  random _ := "1"
  fault
    | .rename "cherm-core" => some "text file busy"
    | _ => none

/-- The binaries of the old release. -/
def oldWorld : World where
  asked := []
  dir := ((∅ : Table String File).put "cherm" ⟨[65], 0o755⟩).put "cherm-core" ⟨[97], 0o755⟩

/-- Whether it failed, and the two files. -/
def left (ran : Except UpdateError String × World) : Bool × List (Option File) :=
  (ran.1.toOption.isNone, binaries ran.2.dir)

theorem busy_left : left (selfUpdate busy (serves newRelease.archive newSignature) false oldWorld) =
    (true, [some ⟨[66], 0o755⟩, some ⟨[97], 0o755⟩]) := by
  decide +kernel

/-- **A mixed pair**: the update fails, and leaves the new `cherm` with the old `cherm-core`. -/
theorem mixed_pair : ¬ AllOrNothing oldWorld.dir
    (selfUpdate busy (serves newRelease.archive newSignature) false oldWorld) := by
  have after := busy_left
  generalize selfUpdate busy (serves newRelease.archive newSignature) false oldWorld = ran at after ⊢
  obtain ⟨failed, files⟩ := Prod.mk.inj after
  intro whole
  unfold AllOrNothing at whole
  split at whole
  · rw [files] at whole
    exact absurd whole (by decide +kernel)
  · next version succeeded =>
    rw [succeeded] at failed
    cases failed

end Ideal

end ChermUpdate
