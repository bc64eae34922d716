/-
**Two comparisons of versions.**

The core and the updater read the same version text as numbers, but not always as the same ones: an
empty segment is -1 for the core and nothing for the updater, and the build behind a `+` counts for
the core only.

* `Plain`: the versions both read alike, by their text.
* `Settled`: the comparison is over before a place that is read differently.
* `versions_agree`: the two agree where it is settled; and a version agrees with every plain one
  exactly if it is plain.
-/

import Cherm.Lib.Lines
import Cherm.Lib.Padded
import Cherm.Plugin.Updates
import Cherm.Update.Client

namespace ChermUpdate

open Cherm (parseDigits parseI64 inI64)
open ChermPlugins (isNewer isNewer_iff parseVersion)
open Lines (free_of_mem_splitOnP)
open Padded (pad newer newer_iff)

/-! ### Segments -/

/-- What the core splits at. -/
def isSeparator (c : Char) : Bool := c = '.' || c = '+' || c = '-'

/-- What the updater splits at. -/
def isPoint (c : Char) : Bool := c = '.' || c = '-'

/-- A version up to its build. -/
def beforeBuild (s : String) : String := String.ofList (s.toList.takeWhile (· ≠ '+'))

/-- The segments up to the build. -/
def mainSegments (s : String) : List (List Char) :=
  (s.toList.takeWhile (· ≠ '+')).splitOnP isPoint

/-- The segments of the build. -/
def buildSegments (s : String) : List (List Char) :=
  match s.toList.dropWhile (· ≠ '+') with
  | [] => []
  | _ :: build => build.splitOnP isSeparator

/-- A released version that both read alike. -/
structure Plain (latest : String) : Prop where
  nonempty : [] ∉ mainSegments latest
  build : ∀ segment ∈ buildSegments latest, segment ≠ [] ∧ ∀ c ∈ segment, c = '0'

/-- A current version that both read alike; its build is cut off. -/
def PlainCurrent (current : String) : Prop := [] ∉ mainSegments current

/-- What the update check and the updater say of the same two versions. -/
def Agree (latest current : String) : Prop :=
  isNewer latest (beforeBuild current) = isNewerVersion latest current

/-- A place of both versions that is read alike. -/
def Alike (latest current : String) (i : Nat) : Prop :=
  pad (parseVersion latest) i = pad (parseVer latest) i ∧
    pad (parseVersion (beforeBuild current)) i = pad (parseVer current) i

/-- Whatever is not read alike comes after the place that decides. -/
def Settled (latest current : String) : Prop :=
  ∀ i, ¬ Alike latest current i → ∃ k < i, (∀ j ≤ k, Alike latest current j) ∧
    pad (parseVer latest) k ≠ pad (parseVer current) k

/-! ### What the two read -/

/-- The updater's comparison is the lexicographic order of what it reads too. -/
theorem isNewerVersion_iff {a b : String} :
    isNewerVersion a b = true ↔ pad (parseVer b) < pad (parseVer a) := by
  have same : isNewerVersion a b = newer (parseVer a) (parseVer b) := by
    unfold isNewerVersion newer
    dsimp only
    cases List.find? _ _ with
    | none => rfl
    | some place => rfl
  rw [same, newer_iff]

theorem agree_iff {latest current : String} : Agree latest current ↔
    (pad (parseVersion (beforeBuild current)) < pad (parseVersion latest) ↔
      pad (parseVer current) < pad (parseVer latest)) := by
  rw [Agree, ← isNewer_iff, ← isNewerVersion_iff, Bool.eq_iff_iff]

/-- A segment without a sign is the same number for both. -/
theorem partNumber_eq {segment : List Char} (free : ∀ c ∈ segment, isSeparator c = false) :
    (parseI64 segment).getD (-1) = partNumber segment := by
  have unsigned : parseI64 segment = ((parseDigits segment).map Int.ofNat).filter inI64 := by
    unfold parseI64
    split
    · exact absurd (free '-' List.mem_cons_self) (by decide)
    · exact absurd (free '+' List.mem_cons_self) (by decide)
    · rfl
  rw [unsigned, partNumber]
  cases parseDigits segment with
  | none => rfl
  | some n =>
      have range : inI64 (Int.ofNat n) = true ↔ n < 2 ^ 63 := by
        simp only [inI64, Bool.and_eq_true, decide_eq_true_eq, Int.ofNat_eq_natCast]
        omega
      by_cases fits : n < 2 ^ 63
      · show (Option.filter inI64 (some (Int.ofNat n))).getD (-1) = if n < 2 ^ 63 then _ else _
        rw [if_pos fits, Option.filter_some_pos (range.mpr fits)]
        rfl
      · show (Option.filter inI64 (some (Int.ofNat n))).getD (-1) = if n < 2 ^ 63 then _ else _
        rw [if_neg fits, Option.filter_some_neg (Bool.eq_false_iff.mpr (mt range.mp fits))]
        rfl

theorem splitOnP_congr {p q : Char → Bool} {text : List Char} (same : ∀ c ∈ text, p c = q c) :
    text.splitOnP p = text.splitOnP q := by
  induction text with
  | nil => rfl
  | cons c rest ih =>
      rw [List.splitOnP_cons_eq_if_modifyHead, List.splitOnP_cons_eq_if_modifyHead,
        same c List.mem_cons_self, ih fun d member => same d (List.mem_cons_of_mem c member)]

theorem isSeparator_of_point {c : Char} (noBuild : c ≠ '+') : isSeparator c = isPoint c := by
  simp [isSeparator, isPoint, noBuild]

theorem before_split (s : String) : (s.toList.takeWhile (· ≠ '+')).splitOnP isSeparator =
    mainSegments s :=
  splitOnP_congr fun c member => isSeparator_of_point
    (of_decide_eq_true (List.all_eq_true.mp List.all_takeWhile c member))

/-- The core splits the build too. -/
theorem split_eq (s : String) :
    s.toList.splitOnP isSeparator = mainSegments s ++ buildSegments s := by
  have parts := List.takeWhile_append_dropWhile (p := fun c => decide (c ≠ '+')) (l := s.toList)
  rw [← before_split, buildSegments]
  conv_lhs => rw [← parts]
  cases rest : s.toList.dropWhile (· ≠ '+') with
  | nil => rw [List.append_nil, List.append_nil]
  | cons c build =>
      have plus : c = '+' := by
        have first := List.head?_dropWhile_not (fun c => decide (c ≠ '+')) s.toList
        rw [rest] at first
        simpa using first
      rw [List.splitOnP_append_cons _ _ (plus ▸ rfl)]

theorem free_main {s : String} {segment : List Char} (member : segment ∈ mainSegments s) :
    ∀ c ∈ segment, isSeparator c = false :=
  free_of_mem_splitOnP (before_split s ▸ member)

theorem free_build {s : String} {segment : List Char} (member : segment ∈ buildSegments s) :
    ∀ c ∈ segment, isSeparator c = false :=
  free_of_mem_splitOnP (split_eq s ▸ List.mem_append_right _ member)

theorem parseVersion_eq (s : String) :
    parseVersion s = (mainSegments s ++ buildSegments s).map partNumber := by
  rw [← split_eq]
  exact List.map_congr_left fun segment member => partNumber_eq (free_of_mem_splitOnP member)

theorem parseVersion_beforeBuild (s : String) :
    parseVersion (beforeBuild s) = (mainSegments s).map partNumber := by
  rw [← before_split, parseVersion, beforeBuild, String.toList_ofList]
  exact List.map_congr_left fun segment member => partNumber_eq (free_of_mem_splitOnP member)

theorem parseVer_eq (s : String) :
    parseVer s = ((mainSegments s).filter (· ≠ [])).map partNumber := rfl

/-! ### Versions that both read alike -/

theorem foldl_digits_zero {digits : List Char} (all : digits.all Char.isDigit = true) (value : Nat) :
    digits.foldl (fun value c => value * 10 + (c.toNat - '0'.toNat)) value = 0 ↔
      value = 0 ∧ ∀ c ∈ digits, c = '0' := by
  induction digits generalizing value with
  | nil => simp
  | cons c rest ih =>
      rw [List.all_cons, Bool.and_eq_true] at all
      have digit : 48 ≤ c.toNat := (Char.isDigit_iff_toNat.mp all.1).1
      have zero : c.toNat - '0'.toNat = 0 ↔ c = '0' := by
        rw [← Char.toNat_inj]
        show c.toNat - 48 = 0 ↔ c.toNat = 48
        omega
      rw [List.foldl_cons, ih all.2, List.forall_mem_cons, Nat.add_eq_zero_iff, zero]
      simp [and_assoc]

/-- The segments that are zero. -/
theorem partNumber_zero {segment : List Char} :
    partNumber segment = 0 ↔ segment ≠ [] ∧ ∀ c ∈ segment, c = '0' := by
  unfold partNumber parseDigits
  by_cases digits : (segment.isEmpty || !segment.all Char.isDigit) = true
  · rw [if_pos digits]
    refine iff_of_false (by decide) ?_
    rintro ⟨nonempty, zeros⟩
    have all : segment.all Char.isDigit = true :=
      List.all_eq_true.mpr fun c member => zeros c member ▸ rfl
    simp [nonempty, all] at digits
  · rw [if_neg digits]
    simp only [Bool.or_eq_true, not_or, List.isEmpty_iff, Bool.not_eq_true', Bool.not_eq_false]
      at digits
    have value := foldl_digits_zero digits.2 0
    simp only [true_and] at value
    rw [← value]
    simp only [digits.1, ne_eq, not_false_eq_true, true_and]
    split <;> omega

theorem partNumber_nil : partNumber [] = -1 := rfl

theorem count_filter (segments : List (List Char)) :
    (segments.map partNumber).count (-1) =
      ((segments.filter (· ≠ [])).map partNumber).count (-1) + segments.count [] := by
  induction segments with
  | nil => rfl
  | cons segment rest ih =>
      by_cases empty : segment = []
      · subst empty
        rw [List.filter_cons_of_neg (by decide), List.map_cons, partNumber_nil,
          List.count_cons_self, List.count_cons_self, ih]
        omega
      · have kept : (segment :: rest).filter (· ≠ []) = segment :: rest.filter (· ≠ []) :=
          List.filter_cons_of_pos (decide_eq_true empty)
        rw [kept, List.map_cons, List.map_cons, List.count_cons, List.count_cons,
          List.count_cons_of_ne empty, ih]
        omega

/-- Segments are read alike exactly if none is empty, and those of the build are zero. -/
theorem alike_iff {main build : List (List Char)} :
    pad ((main ++ build).map partNumber) = pad ((main.filter (· ≠ [])).map partNumber) ↔
      [] ∉ main ∧ ∀ segment ∈ build, partNumber segment = 0 := by
  have kept : [] ∉ main → main.filter (· ≠ []) = main := by
    intro nonempty
    refine List.filter_eq_self.mpr fun segment member => decide_eq_true ?_
    rintro rfl
    exact nonempty member
  constructor
  · intro same
    -- an empty segment is one -1 more for the core
    have counts := Padded.count_of_pad_eq same (show (-1 : Int) ≠ 0 by decide)
    rw [List.map_append, List.count_append, count_filter main] at counts
    have nonempty : [] ∉ main := List.count_eq_zero.mp (by omega)
    rw [kept nonempty, List.map_append, Padded.pad_append] at same
    exact ⟨nonempty, fun segment member => same _ (List.mem_map_of_mem member)⟩
  · rintro ⟨nonempty, zeros⟩
    rw [kept nonempty, List.map_append, Padded.pad_append]
    intro number member
    obtain ⟨segment, inside, rfl⟩ := List.mem_map.mp member
    exact zeros segment inside

/-- The released versions that both read alike. -/
theorem plain_iff {latest : String} :
    Plain latest ↔ pad (parseVersion latest) = pad (parseVer latest) := by
  rw [parseVersion_eq, parseVer_eq, alike_iff]
  exact ⟨fun plain => ⟨plain.nonempty, fun segment member =>
      partNumber_zero.mpr (plain.build segment member)⟩,
    fun both => ⟨both.1, fun segment member => partNumber_zero.mp (both.2 segment member)⟩⟩

/-- The current versions that both read alike. -/
theorem plainCurrent_iff {current : String} : PlainCurrent current ↔
    pad (parseVersion (beforeBuild current)) = pad (parseVer current) := by
  have one : pad ((mainSegments current ++ []).map partNumber) =
      pad (((mainSegments current).filter (· ≠ [])).map partNumber) ↔
        [] ∉ mainSegments current ∧ ∀ segment ∈ [], partNumber segment = 0 := alike_iff
  rw [List.append_nil] at one
  rw [parseVersion_beforeBuild, parseVer_eq, one]
  exact ⟨fun nonempty => ⟨nonempty, fun _ member => absurd member List.not_mem_nil⟩, And.left⟩

/-- **Where the comparison is settled, the two agree.** -/
theorem agree_of_settled {latest current : String} (settled : Settled latest current) :
    Agree latest current := by
  rw [agree_iff]
  by_cases all : ∀ i, Alike latest current i
  · have left : pad (parseVersion latest) = pad (parseVer latest) := funext fun i => (all i).1
    have right : pad (parseVersion (beforeBuild current)) = pad (parseVer current) :=
      funext fun i => (all i).2
    rw [left, right]
  · obtain ⟨i, unlike⟩ := not_forall.mp all
    obtain ⟨k, _, before, differ⟩ := settled i unlike
    refine Padded.lt_congr (i := k) ?_ (fun j le => (before j le).2) fun j le => (before j le).1
    rw [(before k le_rfl).1, (before k le_rfl).2]
    exact differ.symm

theorem settled_of_plain {latest current : String} (plain : Plain latest)
    (plainCurrent : PlainCurrent current) : Settled latest current := by
  intro i unlike
  exact absurd ⟨congrFun (plain_iff.mp plain) i, congrFun (plainCurrent_iff.mp plainCurrent) i⟩
    unlike

/-! ### A plain version for any reading -/

/-- Segments with points between them. -/
def joined : List (List Char) → List Char
  | [] => ['0']
  | [segment] => segment
  | segment :: rest => segment ++ '.' :: joined rest

/-- An empty segment as one that is no number either. -/
def tidy (segment : List Char) : List Char := if segment = [] then ['x'] else segment

def versionOf (segments : List (List Char)) : String := String.ofList (joined (segments.map tidy))

theorem partNumber_tidy (segment : List Char) : partNumber (tidy segment) = partNumber segment := by
  unfold tidy
  split
  · next empty =>
    rw [empty]
    rfl
  · rfl

theorem free_tidy {segment : List Char} (free : ∀ c ∈ segment, isSeparator c = false) :
    ∀ c ∈ tidy segment, isSeparator c = false := by
  unfold tidy
  split
  · exact List.forall_mem_singleton.mpr (by decide)
  · exact free

theorem splitOnP_joined {p : Char → Bool} (point : p '.' = true) {segments : List (List Char)}
    (nonempty : segments ≠ []) (free : ∀ segment ∈ segments, ∀ c ∈ segment, p c = false) :
    (joined segments).splitOnP p = segments := by
  induction segments with
  | nil => exact absurd rfl nonempty
  | cons segment rest ih =>
      have first := free segment List.mem_cons_self
      cases rest with
      | nil => exact List.splitOnP_eq_singleton first
      | cons next others =>
          have later := ih (List.cons_ne_nil _ _) fun other member =>
            free other (List.mem_cons_of_mem _ member)
          show (segment ++ '.' :: joined (next :: others)).splitOnP p = _
          rw [List.splitOnP_append_cons_of_forall_mem first '.' point, later]

theorem noBuild_joined {segments : List (List Char)}
    (free : ∀ segment ∈ segments, ∀ c ∈ segment, isSeparator c = false) :
    ∀ c ∈ joined segments, c ≠ '+' := by
  have apart : ∀ c, isSeparator c = false → c ≠ '+' := by
    rintro c kept rfl
    exact absurd kept (by decide)
  induction segments with
  | nil => exact List.forall_mem_singleton.mpr (by decide)
  | cons segment rest ih =>
      have first := free segment List.mem_cons_self
      cases rest with
      | nil => exact fun c member => apart c (first c member)
      | cons next others =>
          intro c member
          rcases List.mem_append.mp member with here | later
          · exact apart c (first c here)
          · rcases List.mem_cons.mp later with rfl | there
            · decide
            · exact ih (fun other inside => free other (List.mem_cons_of_mem _ inside)) c there

section

variable {segments : List (List Char)}
  (free : ∀ segment ∈ segments, ∀ c ∈ segment, isSeparator c = false)

include free

theorem tidied_free : ∀ segment ∈ segments.map tidy, ∀ c ∈ segment, isSeparator c = false := by
  intro segment member
  obtain ⟨source, inside, rfl⟩ := List.mem_map.mp member
  exact free_tidy (free source inside)

theorem takeWhile_versionOf :
    (versionOf segments).toList.takeWhile (· ≠ '+') = joined (segments.map tidy) := by
  rw [versionOf, String.toList_ofList]
  exact List.takeWhile_eq_self_iff.mpr fun c member =>
    decide_eq_true (noBuild_joined (tidied_free free) c member)

theorem main_versionOf : mainSegments (versionOf segments) =
    if segments = [] then [['0']] else segments.map tidy := by
  rw [mainSegments, takeWhile_versionOf free]
  split
  · next empty =>
    subst empty
    rfl
  · next some =>
    refine splitOnP_joined rfl (mt List.map_eq_nil_iff.mp some) fun segment member c inside => ?_
    have kept := tidied_free free segment member c inside
    simp only [isSeparator, Bool.or_eq_false_iff] at kept
    rw [isPoint, kept.1.1, kept.2]
    rfl

theorem build_versionOf : buildSegments (versionOf segments) = [] := by
  have none : (versionOf segments).toList.dropWhile (· ≠ '+') = [] := by
    rw [versionOf, String.toList_ofList]
    exact List.dropWhile_eq_nil_iff.mpr fun c member =>
      decide_eq_true (noBuild_joined (tidied_free free) c member)
  rw [buildSegments, none]

theorem plainCurrent_versionOf : PlainCurrent (versionOf segments) := by
  rw [PlainCurrent, main_versionOf free]
  split
  · decide
  · intro member
    obtain ⟨segment, _, empty⟩ := List.mem_map.mp member
    unfold tidy at empty
    split at empty
    · cases empty
    · next nonempty => exact nonempty empty

theorem plain_versionOf : Plain (versionOf segments) := by
  refine ⟨plainCurrent_versionOf free, fun segment member => ?_⟩
  rw [build_versionOf free] at member
  cases member

/-- The version is read as the segments are. -/
theorem read_versionOf :
    pad (parseVersion (versionOf segments)) = pad (segments.map partNumber) := by
  rw [parseVersion_eq, main_versionOf free, build_versionOf free, List.append_nil]
  split
  · next empty =>
    subst empty
    exact Padded.pad_eq_nil.mpr (by decide)
  · rw [List.map_map]
    exact congrArg pad (List.map_congr_left fun segment _ => partNumber_tidy segment)

theorem read_current_versionOf :
    pad (parseVersion (beforeBuild (versionOf segments))) = pad (segments.map partNumber) := by
  rw [parseVersion_beforeBuild, ← read_versionOf free, parseVersion_eq (versionOf segments),
    build_versionOf free, List.append_nil]

end

/-- A version that is not plain is compared differently with one that is read as one of its two
readings. -/
theorem plain_of_agree {latest : String}
    (agree : ∀ current, PlainCurrent current → Agree latest current) : Plain latest := by
  have freeMain : ∀ segment ∈ (mainSegments latest).filter (· ≠ []), ∀ c ∈ segment,
      isSeparator c = false := fun segment member => free_main (List.mem_of_mem_filter member)
  have freeAll : ∀ segment ∈ mainSegments latest ++ buildSegments latest, ∀ c ∈ segment,
      isSeparator c = false := by
    intro segment member
    rcases List.mem_append.mp member with here | there
    · exact free_main here
    · exact free_build there
  by_contra notPlain
  rcases lt_or_gt_of_ne (mt plain_iff.mpr notPlain) with less | greater
  · -- a version that both read as the core reads this one
    have plainCurrent := plainCurrent_versionOf freeAll
    have answer := agree_iff.mp (agree _ plainCurrent)
    rw [← plainCurrent_iff.mp plainCurrent, read_current_versionOf freeAll, ← parseVersion_eq]
      at answer
    exact lt_irrefl _ (answer.mpr less)
  · -- a version that both read as the updater reads this one
    have plainCurrent := plainCurrent_versionOf freeMain
    have answer := agree_iff.mp (agree _ plainCurrent)
    rw [← plainCurrent_iff.mp plainCurrent, read_current_versionOf freeMain, ← parseVer_eq]
      at answer
    exact lt_irrefl _ (answer.mp greater)

theorem plainCurrent_of_agree {current : String}
    (agree : ∀ latest, Plain latest → Agree latest current) : PlainCurrent current := by
  have freeMain : ∀ segment ∈ (mainSegments current).filter (· ≠ []), ∀ c ∈ segment,
      isSeparator c = false := fun segment member => free_main (List.mem_of_mem_filter member)
  have freeAll : ∀ segment ∈ mainSegments current, ∀ c ∈ segment, isSeparator c = false :=
    fun segment => free_main
  by_contra notPlain
  rcases lt_or_gt_of_ne (mt plainCurrent_iff.mpr notPlain) with less | greater
  · have plain := plain_versionOf freeMain
    have answer := agree_iff.mp (agree _ plain)
    rw [← plain_iff.mp plain, read_versionOf freeMain, ← parseVer_eq] at answer
    exact lt_irrefl _ (answer.mp less)
  · have plain := plain_versionOf freeAll
    have answer := agree_iff.mp (agree _ plain)
    rw [← plain_iff.mp plain, read_versionOf freeAll, ← parseVersion_beforeBuild] at answer
    exact lt_irrefl _ (answer.mpr greater)

/-- **The two comparisons agree where the comparison is settled.** A released version is compared
alike with every plain current one exactly if it is plain itself, and the other way round. -/
theorem versions_agree (latest current : String) :
    (Settled latest current → Agree latest current) ∧
      ((∀ current, PlainCurrent current → Agree latest current) ↔ Plain latest) ∧
      ((∀ latest, Plain latest → Agree latest current) ↔ PlainCurrent current) :=
  ⟨agree_of_settled,
    ⟨plain_of_agree, fun plain _ plainCurrent =>
      agree_of_settled (settled_of_plain plain plainCurrent)⟩,
    ⟨plainCurrent_of_agree, fun plainCurrent _ plain =>
      agree_of_settled (settled_of_plain plain plainCurrent)⟩⟩

theorem release_agrees : Agree "0.2.0" clientVersion :=
  (versions_agree "0.2.0" clientVersion).1
    (settled_of_plain ⟨by decide +kernel, by decide +kernel⟩
      (show [] ∉ mainSegments clientVersion by decide +kernel))

/-- **A banner without an update**: the build of the released version counts for the core only. -/
theorem build_counts_once : ¬ (∀ latest current, Agree latest current) ∧
    isNewer "0.1.1+5" (beforeBuild clientVersion) = true ∧
    isNewerVersion "0.1.1+5" clientVersion = false := by
  have core : isNewer "0.1.1+5" (beforeBuild clientVersion) = true := by decide +kernel
  have updater : isNewerVersion "0.1.1+5" clientVersion = false := by decide +kernel
  refine ⟨fun all => ?_, core, updater⟩
  have same := all "0.1.1+5" clientVersion
  rw [Agree, core, updater] at same
  cases same

end ChermUpdate
