/-
**The client replaces itself.**

`cherm --update` and the banner's action ask the download host for a version, fetch the archive of
that version for this machine with its signature and its checksum, and put two binaries where the
running one is. The host may answer anything, each time anew.

* `isNewerVersion`: dotted numbers, compared one by one.
* `verifyReleaseSig`: the signature is over the bytes of the archive.
* `selfUpdate` and `runUpdateCLI`.
-/

import Cherm.Client.Wire
import Cherm.Lib.Attempt
import Cherm.Lib.Base64
import Cherm.Lib.GoText
import Cherm.Lib.Table

namespace ChermUpdate

open Cherm (Bytes utf8)
open GoText (runes fields trimSpace)

/-! ### The runtime, the machine and the host -/

/-- What a tar reader gives: names with their contents, to the end or to an error. -/
structure Archive where
  entries : List (String × Except String Bytes)
  error : Option String

/-- What is taken from the runtime. -/
class Runtime where
  ed25519Verify : Bytes → Bytes → Bytes → Bool
  sha256 : Bytes → Bytes
  /-- The client's version in a `releaseMeta`. -/
  unmarshal : Bytes → Except String String
  /-- A gzip reader, and the tar reader on it. -/
  readTarGz : Bytes → Except String Archive
  /-- `filepath.Base`. -/
  base : String → String

/-- A call of the system that may fail. -/
inductive Call where
  | executable
  | createTemp (target : String)
  | write (target : String)
  | close (target : String)
  | chmod (target : String)
  | rename (target : String)

/-- The computer: its platform, the names drawn on it, and which system calls fail. -/
structure Machine where
  goos : String
  goarch : String
  chermBaseURL : Option String
  /-- The random part of a temporary file's name. -/
  random : String → String
  fault : Call → Option String

/-- What comes of a request. -/
inductive Reply where
  | failed (error : String)
  | got (status : Nat) (body : Except String Bytes)

/-- The host answers a request, after those it was asked before. -/
abbrev Host := List String → String → Reply

/-- The content of a file and its permission bits. -/
structure File where
  bytes : Bytes
  mode : Nat
deriving DecidableEq

/-- What an update touches: the addresses asked for, and the directory. -/
structure World where
  asked : List String
  /-- The directory of the running executable. -/
  dir : Table String File

/-- How an update ends that does not succeed. -/
inductive UpdateError where
  | alreadyLatest (latest : String)
  | failed (message : String)

/-! ### Texts -/

/-- `base64.StdEncoding.DecodeString`: line ends are skipped, spare bits are dropped. -/
def decodeString (text : List Char) : Option Bytes :=
  let chars := text.filter fun c => c ≠ '\n' && c ≠ '\r'
  let body := chars.takeWhile (· ≠ '=')
  let pad := chars.dropWhile (· ≠ '=')
  if chars.length % 4 = 0 ∧ pad.length ≤ 2 ∧ pad.all (· = '=') = true ∧
      body.all (fun c => (Base64.symbolValue c).isSome) = true then
    some (Base64.unsextets (body.filterMap Base64.symbolValue))
  else none

/-- A digit of a byte's text. -/
def hexDigit (n : Nat) : Char := "0123456789abcdef".toList.getD n '0'

/-- `hex.EncodeToString`. -/
def hexText (bytes : Bytes) : List Char :=
  bytes.flatMap fun byte => [hexDigit (byte.toNat / 16), hexDigit (byte.toNat % 16)]

/-! ### Versions -/

/-- `ClientVersion`. -/
def clientVersion : String := "0.1.1"

/-- `strconv.Atoi` of digits, or what stands for a part that is no number. -/
def partNumber (part : List Char) : Int :=
  match Cherm.parseDigits part with
  | some n => if n < 2 ^ 63 then n else -1
  | none => -1

/-- The parts of a version, without what follows a plus. -/
def parseVer (s : String) : List Int :=
  (((s.toList.takeWhile (· ≠ '+')).splitOnP fun c => c = '.' || c = '-').filter (· ≠ [])).map
    partNumber

/-- The first place where two versions differ decides; a missing part is zero. -/
def isNewerVersion (a b : String) : Bool :=
  let pa := parseVer a
  let pb := parseVer b
  let places := (List.range (max pa.length pb.length)).map fun i => (pa.getD i 0, pb.getD i 0)
  match places.find? fun (x, y) => x ≠ y with
  | some (x, y) => decide (x > y)
  | none => false

/-! ### The signature -/

section

variable [Runtime]

/-- The key that releases are signed under. -/
def releasePublicKeyB64 : String := "GKfrjMEz4FWPDttzpNDmThSZotHZ9Cz7Io2TJwOY6LI="

/-- The signature of a release, under the embedded key. -/
def verifyReleaseSig (data : Bytes) (sigB64 : List Char) : Except String Unit :=
  match (decodeString releasePublicKeyB64.toList).filter (·.length = 32) with
  | none => .error "invalid embedded release key"
  | some pub =>
      match (decodeString (trimSpace sigB64)).filter (·.length = 64) with
      | none => .error "malformed release signature"
      | some sig =>
          if Runtime.ed25519Verify pub data sig then .ok ()
          else .error "release signature does not verify against the embedded key"

/-! ### Requests -/

/-- Where the updates are, unless the environment names another place. -/
def updateBaseURL (machine : Machine) : String :=
  match machine.chermBaseURL with
  | some url => if url ≠ "" then String.ofList (url.toList.reverse.dropWhile (· = '/')).reverse
      else "https://cherm.chat"
  | none => "https://cherm.chat"

/-- The platform's name in the addresses. -/
def updatePlatform (machine : Machine) : Except String String :=
  let os := if machine.goos = "darwin" then some "macos" else if machine.goos = "linux" then
    some "linux" else if machine.goos = "windows" then some "windows" else none
  let arch := if machine.goarch = "arm64" then some "arm64" else if machine.goarch = "amd64" then
    some "x64" else none
  match os, arch with
  | none, _ => .error ("unsupported OS " ++ machine.goos)
  | some _, none => .error ("unsupported arch " ++ machine.goarch)
  | some os, some arch => .ok (os ++ "-" ++ arch)

/-- A step of the updater. -/
abbrev Step (ε α : Type) := Attempt World ε α

/-- One request; whatever comes of it, it was made. -/
def httpGet (host : Host) (url : String) : Step String Bytes := fun world =>
  let asked := { world with asked := world.asked ++ [url] }
  match host world.asked url with
  | .failed e => (.error e, asked)
  | .got status body =>
      if status ≠ 200 then (.error ("GET " ++ url ++ " -> HTTP " ++ toString status), asked)
      else (body, asked)

/-- The version that `version.json` names. -/
def latestClientVersion (machine : Machine) (host : Host) : Step String String := do
  let body ← httpGet host (updateBaseURL machine ++ "/version.json")
  let version ← Attempt.lift (Runtime.unmarshal body)
  Attempt.check (version ≠ "") "no client version in version.json"
  return version

/-! ### The binaries -/

/-- The last entry of each of the two names. -/
def extractEntries : List (String × Except String Bytes) → Table String Bytes →
    Except String (Table String Bytes)
  | [], out => .ok out
  | (name, content) :: rest, out =>
      if Runtime.base name = "cherm" ∨ Runtime.base name = "cherm-core" then
        match content with
        | .error e => .error e
        | .ok data => extractEntries rest (out.put (Runtime.base name) data)
      else extractEntries rest out

/-- The binaries in an archive, by name. -/
def extractBinaries (targz : Bytes) : Except String (Table String Bytes) :=
  match Runtime.readTarGz targz with
  | .error e => .error e
  | .ok archive =>
      match extractEntries archive.entries ∅, archive.error with
      | .error e, _ => .error e
      | .ok _, some e => .error e
      | .ok out, none => .ok out

/-- The new file beside a target. -/
def tempName (machine : Machine) (target : String) : String :=
  ".cherm-upd-" ++ machine.random target

/-- The bytes are written to a new file beside the target, which is then renamed; whatever happens,
the new file is gone. -/
def replaceBinary (machine : Machine) (target : String) (data : Bytes) : Step String Unit :=
  fun world =>
    let tmp := tempName machine target
    match machine.fault (.createTemp target), world.dir.get tmp with
    | some e, _ => (.error e, world)
    | none, some _ => (.error "file exists", world)
    | none, none =>
        match machine.fault (.write target) <|> machine.fault (.close target) <|>
            machine.fault (.chmod target) <|> machine.fault (.rename target) with
        | some e => (.error e, world)
        | none => (.ok (), { world with dir := world.dir.put target ⟨data, 0o755⟩ })

/-- Put each binary in its place, in this order; the first error ends it. -/
def installAll (machine : Machine) (bins : Table String Bytes) : List String → Step String Unit
  | [] => pure ()
  | name :: rest => do
      match bins.get name with
      | none => Attempt.fail ("archive missing " ++ name)
      | some data =>
          Attempt.mapError (fun e => "install " ++ name ++ ": " ++ e)
            (replaceBinary machine name data)
          installAll machine bins rest

/-! ### The update -/

/-- The sidecar, where there is one, says the checksum. -/
def checksumHolds (tarball : Bytes) : Except String Bytes → Bool
  | .error _ => true
  | .ok raw => (fields (runes raw)).head? = some (hexText (Runtime.sha256 tarball))

/-- The file name of a platform's archive. -/
def artifactName (platform : String) : String := "cherm-client-" ++ platform ++ ".tar.gz"

/-- Fetch the artifact of a version, check it and install it. -/
def installRelease (machine : Machine) (host : Host) (platform latest : String) :
    Step String Unit := do
  let artifact := artifactName platform
  let url := updateBaseURL machine ++ "/releases/client/" ++ latest ++ "/" ++ artifact
  let tarball ← Attempt.mapError (fun e => "download " ++ artifact ++ ": " ++ e)
    (httpGet host url)
  let sigB64 ← Attempt.mapError
    (fun e => "fetch release signature: " ++ e ++ " (refusing to install unsigned update)")
    (httpGet host (url ++ ".sig"))
  Attempt.mapError (fun e => "signature verification failed: " ++ e)
    (Attempt.lift (verifyReleaseSig tarball (runes sigB64)))
  let sidecar ← Attempt.caught (httpGet host (url ++ ".sha256"))
  Attempt.check (checksumHolds tarball sidecar) "checksum mismatch — refusing to install"
  Attempt.lift (match machine.fault .executable with
    | some e => .error e
    | none => .ok ())
  let bins ← Attempt.lift (extractBinaries tarball)
  installAll machine bins ["cherm", "cherm-core"]

/-- Update the client to the latest version, if it is newer or this is forced. -/
def selfUpdate (machine : Machine) (host : Host) (force : Bool) : Step UpdateError String := do
  let platform ← Attempt.mapError .failed (Attempt.lift (updatePlatform machine))
  let latest ← Attempt.mapError .failed (latestClientVersion machine host)
  Attempt.check (force || isNewerVersion latest clientVersion) (.alreadyLatest latest)
  Attempt.mapError .failed (installRelease machine host platform latest)
  return latest

/-- The lines that are printed and the exit code. -/
def runUpdateCLI (machine : Machine) (host : Host) (force : Bool) (world : World) :
    List String × Nat × World :=
  let checking := "Cherm Client v" ++ clientVersion ++ " — checking for updates…"
  match latestClientVersion machine host world with
  | (.error e, world) => ([checking, "error: " ++ e], 1, world)
  | (.ok latest, world) =>
      if !force && !isNewerVersion latest clientVersion then
        ([checking, "Already on the latest version (v" ++ clientVersion ++ ")."], 0, world)
      else
        let updated := fun got => [checking, "Updating to v" ++ latest ++ "…",
          "Updated to v" ++ got ++ ". Your wallet/config/plugins were preserved.", "Run: cherm"]
        match selfUpdate machine host force world with
        | (.error (.failed e), world) =>
            ([checking, "Updating to v" ++ latest ++ "…", "update failed: " ++ e], 1, world)
        | (.error (.alreadyLatest got), world) => (updated got, 0, world)
        | (.ok got, world) => (updated got, 0, world)

end

end ChermUpdate
