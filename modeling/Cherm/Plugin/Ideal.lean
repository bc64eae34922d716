/-
**Crates and a store to compute with.**

JSON is the real one, as the manager writes it and as the store may. The checksums are those of the
packages named here. A store answers for one plugin at a time.
-/

import Cherm.Plugin.Manager

namespace ChermPlugins.Ideal

open Cherm (Bytes utf8 fromUtf8)

/-- A package with a theme of no colours. -/
def themePackage : String := "\x7b\"theme\":\x7b\x7d\x7d"

/-- Packages and their SHA-256. -/
def digests : List (String × String) := [
  ("{}", "44136fa355b3678a1146ad16f7e8649e94fb4fc21fe77e8310c060f61caaff8a"),
  (themePackage, "9c43565e69b096ee4c5c889c78c24caca4052ede74968726bd8c19ada0efe2d9"),
  ("\x7b\"widgets\":[\x7b\"slot\":\"status\",\"kind\":\"text\"\x7d]\x7d",
    "1f2c96d9781d21bf75eb43d3daad47975031a1ba91b6b3e0bf6ba241465fa3aa")]

abbrev crates : Crates where
  sha256Hex bytes := ((fromUtf8 bytes).bind fun text => digests.lookup text).getD ""
  fromSlice bytes := (Utf8.decode bytes).bind Json.parsePretty
  serdeError what _ := "invalid " ++ what
  unprinted _ := false
  fromSlice_pretty value exact _ := by
    rw [toVecPretty, Cherm.utf8_ofList, Utf8.decode_encode, Option.bind_some, Json.parsePretty_pretty exact]

attribute [local instance] crates

theorem zero_fits : -2 ^ 63 ≤ (0 : Int) ∧ (0 : Int) < 2 ^ 63 := by decide

/-- A manifest with some permissions, for a package. -/
def manifest (name : String) (permissions : List String) (package : String) : Manifest where
  name := name
  displayName := ""
  version := "1"
  kind := "theme"
  category := "community_unaudited"
  description := ""
  author := ""
  license := ""
  sourceUrl := ""
  permissions := permissions
  minClient := ""
  packageSha256 := Crates.sha256Hex (utf8 package)
  updatedTs := ⟨0, zero_fits⟩

/-- What is at a plugin's two addresses. -/
def answers (name : String) (permissions : List String) (package url : String) :
    Except String Response :=
  if url = "store" ++ "/" ++ sanitize name ++ "/manifest" then
    .ok ⟨none, [.ok (toVecPretty (manifest name permissions package).toJson)]⟩
  else if url = "store" ++ "/" ++ sanitize name ++ "/package" then
    .ok ⟨none, [.ok (utf8 package)]⟩
  else .error "not found"

/-- Install a plugin that the store has so. -/
def installs (name : String) (permissions : List String) (package : String) : Call :=
  .install (answers name permissions package) "store" name

theorem readCapped_one {bytes : Bytes} {max : Nat} (fits : bytes.length ≤ max) :
    readCapped ⟨none, [.ok bytes]⟩ max = .ok bytes := by
  show (if max < 0 + bytes.length then _ else Except.ok ([] ++ bytes)) = _
  rw [if_neg (by omega), List.nil_append]

/-- No character takes more than four bytes. -/
theorem length_toVecPretty_le (value : Json) :
    (toVecPretty value).length ≤ 4 * (Json.pretty 0 value).length := by
  rw [toVecPretty, Cherm.utf8_ofList, Utf8.encode]
  generalize Json.pretty 0 value = text
  induction text with
  | nil => exact Nat.le_refl _
  | cons c rest ih =>
      have one : (String.utf8EncodeChar c).length ≤ 4 := by
        rw [String.length_utf8EncodeChar]
        exact Char.utf8Size_le_four c
      rw [List.flatMap_cons, List.length_append, List.length_cons]
      omega

/-- **A plugin that is as its manifest says passes every check.** -/
theorem fetchPlugin_answers {name dir package : String} {permissions : List String}
    (place : pluginDir name = some dir) (plain : trimmed name = name)
    (valid : validatePermissions permissions = .ok ())
    (short : 4 * (Json.pretty 0 (manifest name permissions package).toJson).length ≤
      maxManifestBytes)
    (fits' : (utf8 package).length ≤ maxPackageBytes)
    (known : (manifest name permissions package).packageSha256 ≠ "")
    (parsed : ((Crates.fromSlice (utf8 package)).bind Package.fromJson).isSome)
    (apart : "store" ++ "/" ++ sanitize name ++ "/package" ≠
      "store" ++ "/" ++ sanitize name ++ "/manifest") :
    fetchPlugin (answers name permissions package) "store" (trimmed name) =
      .verified dir (manifest name permissions package) (utf8 package) := by
  have fits := le_trans (length_toVecPretty_le (manifest name permissions package).toJson) short
  have first : fetch (answers name permissions package)
      ("store" ++ "/" ++ sanitize name ++ "/manifest") maxManifestBytes "manifest" =
        .ok (toVecPretty (manifest name permissions package).toJson) := by
    rw [fetch, answers, if_pos rfl]
    show (readCapped _ _).mapError _ = _
    rw [readCapped_one fits]
    rfl
  have read : parseRecord "manifest" Manifest.fromJson
      (toVecPretty (manifest name permissions package).toJson) =
        .ok (manifest name permissions package) := by
    rw [parseRecord, Crates.fromSlice_pretty _ (Manifest.toJson_exact _)
      (Manifest.toJson_within _ 97), Option.bind_some, Manifest.fromJson_toJson]
  have second : fetch (answers name permissions package)
      ("store" ++ "/" ++ sanitize name ++ "/package") maxPackageBytes "package" =
        .ok (utf8 package) := by
    rw [fetch, answers, if_neg apart, if_pos rfl]
    show (readCapped _ _).mapError _ = _
    rw [readCapped_one fits']
    rfl
  obtain ⟨pkg, parsed⟩ := Option.isSome_iff_exists.mp parsed
  have third : parseRecord "package" Package.fromJson (utf8 package) = .ok pkg := by
    rw [parseRecord, parsed]
  have own : trimmed (manifest name permissions package).name = name := plain
  have checksum : Crates.sha256Hex (utf8 package) =
      (manifest name permissions package).packageSha256 := rfl
  have checks : validatePermissions (manifest name permissions package).permissions = .ok () :=
    valid
  rw [plain, fetchPlugin, place]
  dsimp only
  rw [first]
  dsimp only
  rw [read]
  dsimp only
  rw [if_neg (not_not.mpr own), checks]
  dsimp only
  rw [second]
  dsimp only
  rw [if_neg known, if_neg (not_not.mpr checksum), third]

end ChermPlugins.Ideal
