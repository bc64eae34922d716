/-
**One address for a server.**

The core and the terminal each make what a user typed into an address. The vault of a server is
found by its address, so both must come to the same one, however often they are asked.

* `normalizeServerAddr`: the terminal's function.
* `Connectable`: no white space at the ends, no path, and a port. Each result is connectable, and what
  is connectable stays.
* `normalize_settles`: whichever layers normalise an address, in whatever order.
-/

import Cherm.Client.Account
import Cherm.Lib.Edges
import Cherm.Lib.GoText

namespace ChermTui

open GoText

/-- `normalizeServerAddr` of the terminal. -/
def normalizeServerAddr (s : String) : String :=
  let text := trimSpace s.toList
  if text = [] then String.ofList text
  else
    -- a scheme like http:// or https://
    let text := match index text "://".toList with
      | some i => text.drop (i + 3)
      | none => text
    let text := match indexAny text "/?#".toList with
      | some i => text.take i
      | none => text
    let text := trimSpace text
    if text ≠ [] ∧ index text ":".toList = none then String.ofList (text ++ ":9000".toList)
    else String.ofList text

end ChermTui

namespace Cherm

open GoText (trimSpace isSpace index indexAny)
open ChermTui (normalizeServerAddr)

/-! ### The two languages' texts -/

theorem isSpace_eq : isSpace = isTrimmed := by
  funext c
  have blank : (decide (c = ' ')) = decide (c.toNat = 0x20) :=
    decide_eq_decide.mpr ⟨fun same => same ▸ rfl, fun same => Char.toNat_inj.mp same⟩
  have controls : (decide ('\t' ≤ c) && decide (c ≤ '\x0d')) =
      (decide (9 ≤ c.toNat) && decide (c.toNat ≤ 13)) := rfl
  rw [isSpace, isTrimmed, blank, controls]
  cases decide (9 ≤ c.toNat) && decide (c.toNat ≤ 13) with
  | true => simp
  | false => simp

/-- White space is the same in both. -/
theorem trimSpace_eq (text : List Char) : trimSpace text = trim text := by
  rw [trimSpace, trim, isSpace_eq]

/-- A text that is not empty is found at the same place in both. -/
theorem index_eq {marker : List Char} (nonempty : marker ≠ []) (text : List Char) :
    afterFirst marker text = (index text marker).map fun i => text.drop (i + marker.length) := by
  induction text with
  | nil =>
      cases marker with
      | nil => exact absurd rfl nonempty
      | cons c rest => rfl
  | cons c rest ih =>
      have later : ((List.range (rest.length + 1)).map Nat.succ).find?
          (fun i => marker.isPrefixOf ((c :: rest).drop i)) = (index rest marker).map Nat.succ := by
        rw [List.find?_map]
        rfl
      rw [afterFirst, index, List.length_cons, List.range_succ_eq_map, List.find?_cons]
      split
      · next here =>
        rw [List.drop_zero, here]
        rw [Option.map_some, Nat.zero_add]
      · next here =>
        rw [List.drop_zero, Bool.not_eq_true _ |>.mp here]
        dsimp only
        rw [later, ih, Option.map_map]
        refine congrArg (Option.map · _) (funext fun i => ?_)
        show rest.drop (i + marker.length) = (c :: rest).drop (i + 1 + marker.length)
        rw [Nat.add_right_comm, List.drop_succ_cons]

/-- A character is found exactly if it is there. -/
theorem index_single (text : List Char) (c : Char) : index text [c] = none ↔ c ∉ text := by
  induction text with
  | nil => simp [index]
  | cons d rest ih =>
      have first := index_eq (List.cons_ne_nil c []) (d :: rest)
      have others := index_eq (List.cons_ne_nil c []) rest
      rw [← Option.map_eq_none_iff, ← first, afterFirst]
      rw [← Option.map_eq_none_iff, ← others] at ih
      by_cases same : c = d
      · subst same
        simp
      · simp [same, ih]

/-- The text before the first of some characters. -/
theorem indexAny_eq (text chars : List Char) :
    (match indexAny text chars with | some i => text.take i | none => text) =
      text.takeWhile fun c => !chars.contains c := by
  rw [indexAny, List.takeWhile_eq_take_findIdx_not]
  simp only [Bool.not_not]
  cases found : text.findIdx? fun c => chars.contains c with
  | none =>
      rw [List.findIdx_eq_length.mpr (List.findIdx?_eq_none_iff.mp found), List.take_length]
  | some i => rw [(List.findIdx?_eq_some_iff_findIdx_eq.mp found).2]

/-! ### What an address is made into -/

/-- Without the scheme. -/
def afterScheme (text : List Char) : List Char := (afterFirst "://".toList text).getD text

/-- Without the path. -/
def beforePath (text : List Char) : List Char :=
  text.takeWhile fun c => c ≠ '/' && c ≠ '?' && c ≠ '#'

/-- With the default port, if none is given. -/
def withPort (text : List Char) : List Char :=
  if !text.isEmpty && !text.contains ':' then text ++ ":9000".toList else text

/-- The default port is part of the text. -/
theorem ofList_withPort (text : List Char) : String.ofList (withPort text) =
    if !text.isEmpty && !text.contains ':' then String.ofList text ++ ":9000"
    else String.ofList text := by
  unfold withPort
  split
  · exact String.ofList_append
  · rfl

theorem normalizeAddr_eq (s : String) : normalizeAddr s =
    String.ofList (withPort (trim (beforePath (afterScheme (trim s.toList))))) := by
  rw [ofList_withPort]
  rfl

theorem afterScheme_eq (text : List Char) : (match index text "://".toList with
    | some i => text.drop (i + 3)
    | none => text) = afterScheme text := by
  rw [afterScheme, index_eq (by decide)]
  cases index text "://".toList with
  | some i => rfl
  | none => rfl

theorem beforePath_eq (text : List Char) : (match indexAny text "/?#".toList with
    | some i => text.take i
    | none => text) = beforePath text := by
  rw [indexAny_eq, beforePath]
  refine congrArg (List.takeWhile · text) (funext fun c => ?_)
  simp [Bool.and_assoc]

/-- **Both layers agree**, on every text. -/
theorem normalizeServerAddr_eq (s : String) : normalizeServerAddr s = normalizeAddr s := by
  have port : ∀ text : List Char, (text ≠ [] ∧ index text ":".toList = none) ↔
      (!text.isEmpty && !text.contains ':') = true := by
    intro text
    simp [index_single]
  rw [normalizeAddr_eq, normalizeServerAddr]
  dsimp only
  rw [afterScheme_eq, beforePath_eq]
  simp only [trimSpace_eq, port]
  split
  · next empty =>
    rw [empty]
    rfl
  · rw [withPort]
    split
    · rfl
    · rfl

/-! ### What stays as it is -/

/-- An address without white space at its ends and without a path, that has a port if it is not
empty. -/
structure Connectable (text : List Char) : Prop where
  bare : Edges.Bare isTrimmed text
  noPath : ∀ c ∈ text, (c ≠ '/' && c ≠ '?' && c ≠ '#') = true
  port : text ≠ [] → ':' ∈ text

theorem afterFirst_absent {c : Char} {rest text : List Char} (absent : c ∉ text)
    (inside : c ∈ rest) : afterFirst rest text = none := by
  induction text with
  | nil => rfl
  | cons d others ih =>
      rw [afterFirst, if_neg, ih fun member => absent (List.mem_cons_of_mem _ member)]
      intro begins
      exact absent ((List.isPrefixOf_iff_prefix.mp begins).subset inside)

theorem normalizeAddr_connectable {text : List Char} (connectable : Connectable text) :
    normalizeAddr (String.ofList text) = String.ofList text := by
  have trims : trim text = text := Edges.trim_of_bare connectable.bare
  have noSlash : '/' ∉ text := fun member => by simpa using connectable.noPath '/' member
  have noScheme : afterScheme text = text := by
    rw [afterScheme, afterFirst_absent noSlash (by decide)]
    rfl
  have noPath : beforePath text = text := List.takeWhile_eq_self_iff.mpr connectable.noPath
  rw [normalizeAddr_eq, String.toList_ofList, trims, noScheme, noPath, trims, withPort, if_neg]
  intro noPort
  simp only [Bool.and_eq_true, Bool.not_eq_true', List.isEmpty_eq_false_iff] at noPort
  have colon := connectable.port noPort.1
  rw [← List.contains_iff_mem, noPort.2] at colon
  cases colon

theorem connectable_withPort {text : List Char} (bare : Edges.Bare isTrimmed text)
    (noPath : ∀ c ∈ text, (c ≠ '/' && c ≠ '?' && c ≠ '#') = true) : Connectable (withPort text) := by
  unfold withPort
  split
  · next port =>
    simp only [Bool.and_eq_true, Bool.not_eq_true', List.isEmpty_eq_false_iff] at port
    refine ⟨⟨fun c first => bare.first c ?_, fun c last => ?_⟩, fun c member => ?_, fun _ => ?_⟩
    · rwa [List.head?_append_of_ne_nil _ port.1] at first
    · rw [List.getLast?_append_of_ne_nil _ (by decide)] at last
      obtain rfl : '0' = c := Option.some.inj last
      decide
    · rcases List.mem_append.mp member with old | new
      · exact noPath c old
      · have plain : ":9000".toList.all fun c => c ≠ '/' && c ≠ '?' && c ≠ '#' := by decide
        exact List.all_eq_true.mp plain c new
    · exact List.mem_append_right _ (by decide)
  · next port =>
    refine ⟨bare, noPath, fun nonempty => ?_⟩
    by_contra absent
    simp [nonempty, absent] at port

/-- Every result is connectable. -/
theorem connectable_normalizeAddr (s : String) : Connectable (normalizeAddr s).toList := by
  have noPath : ∀ text : List Char, ∀ c ∈ beforePath text,
      (c ≠ '/' && c ≠ '?' && c ≠ '#') = true := by
    intro text c member
    exact List.all_eq_true.mp List.all_takeWhile c member
  rw [normalizeAddr_eq, String.toList_ofList]
  exact connectable_withPort (Edges.bare_trim _) fun c member =>
    noPath _ c (Edges.mem_of_mem_trim (p := isTrimmed) member)

theorem normalizeAddr_again (s : String) : normalizeAddr (normalizeAddr s) = normalizeAddr s := by
  have stays := normalizeAddr_connectable (connectable_normalizeAddr s)
  rwa [String.ofList_toList] at stays

/-! ### Layers -/

/-- Where an address is normalised. -/
inductive Layer where
  | core
  | terminal

def Layer.normalize : Layer → String → String
  | .core => normalizeAddr
  | .terminal => normalizeServerAddr

theorem Layer.normalize_eq (layer : Layer) (s : String) : layer.normalize s = normalizeAddr s := by
  cases layer with
  | core => rfl
  | terminal => exact normalizeServerAddr_eq s

/-- **One address.** The core's function gives its own results back, the terminal's is the same
function; so an address that passed through any layers in any order is what the first made of it. -/
theorem normalize_settles :
    (∀ s, normalizeAddr (normalizeAddr s) = normalizeAddr s) ∧
      (∀ s, normalizeServerAddr s = normalizeAddr s) ∧
      ∀ s (first : Layer) (layers : List Layer),
        layers.foldl (fun addr layer => layer.normalize addr) (first.normalize s) =
          normalizeAddr s := by
  refine ⟨normalizeAddr_again, normalizeServerAddr_eq, fun s first layers => ?_⟩
  rw [first.normalize_eq]
  induction layers with
  | nil => rfl
  | cons layer rest ih => rw [List.foldl_cons, layer.normalize_eq, normalizeAddr_again, ih]

end Cherm
