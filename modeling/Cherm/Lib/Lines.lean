/-
**A text in lines.**

A text is laid out by blanks behind its lines and by breaks anywhere in them.

* `splitOn_append`, `splitOn_intercalate_texts`: the lines of texts that are put together.
* `Laid`: a text with breaks and blanks. Each of its lines is a part of one of the text, with blanks.
* `prefix_of_pads`, `infix_of_pads`: what ends in no blank was there before the blanks.
* `append_of_stop`: what goes on behind no stop is on one side of it.
-/

import Mathlib.Data.List.Forall2
import Mathlib.Data.List.Infix

namespace Lines

variable {α : Type}

/-! ### Segments -/

/-- No segment has what was split at. -/
theorem free_of_mem_splitOnP {p : α → Bool} {text segment : List α}
    (member : segment ∈ text.splitOnP p) : ∀ c ∈ segment, p c = false := by
  induction text generalizing segment with
  | nil =>
      rw [List.splitOnP_nil, List.mem_singleton] at member
      rw [member]
      exact fun c inside => absurd inside List.not_mem_nil
  | cons c rest ih =>
      rw [List.splitOnP_cons_eq_if_modifyHead] at member
      split at member
      · rcases List.mem_cons.mp member with rfl | later
        · exact fun c inside => absurd inside List.not_mem_nil
        · exact ih later
      · next kept =>
        cases segments : rest.splitOnP p with
        | nil => exact absurd segments (List.splitOnP_ne_nil p rest)
        | cons first others =>
            rw [segments, List.modifyHead_cons] at member
            rcases List.mem_cons.mp member with rfl | later
            · intro d inside
              rcases List.mem_cons.mp inside with rfl | there
              · exact Bool.eq_false_iff.mpr kept
              · exact ih (segments ▸ List.mem_cons_self) d there
            · exact ih (segments ▸ List.mem_cons_of_mem first later)

/-! ### Blanks behind the lines -/

/-- Blanks behind a line. -/
def Pads (blank : α) (line padded : List α) : Prop :=
  ∃ k, padded = line ++ List.replicate k blank

def Padded (blank : α) : List (List α) → List (List α) → Prop := List.Forall₂ (Pads blank)

variable {blank : α} {lines lines' : List (List α)} {line last last' : List α}

theorem Pads.refl (line : List α) : Pads blank line line := ⟨0, (List.append_nil line).symm⟩

theorem Padded.refl (lines : List (List α)) : Padded blank lines lines :=
  List.forall₂_same.mpr fun line _ => Pads.refl line

theorem Padded.mem (related : Padded blank lines lines') (member : line ∈ lines') :
    ∃ before ∈ lines, Pads blank before line := by
  induction related with
  | nil => simp at member
  | cons pads _ ih =>
      rcases List.mem_cons.mp member with rfl | later
      · exact ⟨_, List.mem_cons_self, pads⟩
      · obtain ⟨before, member, pads⟩ := ih later
        exact ⟨before, List.mem_cons_of_mem _ member, pads⟩

theorem Padded.append {others others' : List (List α)} (one : Padded blank lines lines')
    (two : Padded blank others others') : Padded blank (lines ++ others) (lines' ++ others') := by
  induction one with
  | nil => exact two
  | cons pads _ ih => exact .cons pads ih

theorem Padded.concat (related : Padded blank (lines ++ [last]) (lines' ++ [last'])) :
    Padded blank lines lines' ∧ Pads blank last last' := by
  have backwards := List.forall₂_reverse_iff.mpr related
  rw [List.reverse_concat, List.reverse_concat, List.forall₂_cons] at backwards
  exact ⟨List.forall₂_reverse_iff.mp backwards.2, backwards.1⟩

/-! ### What stands in a line -/

variable {t u v x y : List α}

/-- What ends in no blank ends before the blanks. -/
theorem prefix_of_pads (pads : Pads blank x y) (front : t <+: y)
    (ends : t.getLast? ≠ some blank) : t <+: x := by
  obtain ⟨k, rfl⟩ := pads
  obtain ⟨after, whole⟩ := front
  rcases List.append_eq_append_iff.mp whole with ⟨more, rfl, _⟩ | ⟨more, rfl, blanks⟩
  · exact ⟨more, rfl⟩
  · -- what goes beyond the line is blank
    cases nil : more.getLast? with
    | none =>
        rw [List.getLast?_eq_none_iff.mp nil, List.append_nil]
    | some c =>
        have inside : c ∈ List.replicate k blank :=
          blanks ▸ List.mem_append_left after (List.mem_of_getLast? nil)
        rw [List.getLast?_append, nil, Option.some_or, (List.mem_replicate.mp inside).2] at ends
        exact absurd rfl ends

theorem infix_of_pads (pads : Pads blank x y) (inside : t <:+: y)
    (ends : t.getLast? ≠ some blank) : t <:+: x := by
  obtain ⟨before, after, whole⟩ := inside
  cases nil : t with
  | nil => exact ⟨[], x, rfl⟩
  | cons c rest =>
      have last : (before ++ t).getLast? ≠ some blank := by
        rw [List.getLast?_append_of_ne_nil before (nil ▸ List.cons_ne_nil c rest)]
        exact ends
      obtain ⟨more, same⟩ := prefix_of_pads pads ⟨after, whole⟩ last
      exact ⟨before, more, nil ▸ same⟩

/-- What begins with no blank begins behind the blanks. -/
theorem infix_of_replicate_append {k : Nat} (inside : t <:+: List.replicate k blank ++ x)
    (begins : t.head? ≠ some blank) : t <:+: x := by
  induction k with
  | zero => exact inside
  | succ k ih =>
      rw [List.replicate_succ, List.cons_append, List.infix_cons_iff] at inside
      rcases inside with front | later
      · cases t with
        | nil => exact List.nil_infix
        | cons c rest =>
            obtain ⟨rfl, _⟩ := List.cons_prefix_cons.mp front
            exact absurd rfl begins
      · exact ih later

/-- **What goes on behind no stop** is before the end of a text that ends in a stop, or behind it. -/
theorem append_of_stop {stop : α} {init b : List α} (once : ∀ front back, t = front ++ stop :: back →
    back = []) (whole : u ++ t ++ v = init ++ [stop] ++ b) :
    (∃ more, init ++ [stop] = u ++ t ++ more) ∨ t <:+: b := by
  rcases List.append_eq_append_iff.mp whole with ⟨more, same, _⟩ | ⟨more, same, rfl⟩
  · exact .inl ⟨more, same⟩
  rcases List.append_eq_append_iff.mp same with ⟨part, same', rfl⟩ | ⟨part, rfl, rfl⟩
  · rcases List.eq_nil_or_concat part with rfl | ⟨front, c, rfl⟩
    · exact .inr ⟨[], v, rfl⟩
    · -- the stop is in it, so it ends there
      rw [List.concat_eq_append] at same' once ⊢
      rw [← List.append_assoc] at same'
      obtain rfl : stop = c := List.singleton_inj.mp (List.append_inj_right' same' rfl)
      have nothing := once front more (by simp)
      rw [nothing, List.append_nil]
      exact .inl ⟨[], by rw [List.append_nil, same', List.append_assoc]⟩
  · exact .inr ⟨part, v, by rw [List.append_assoc]⟩

theorem nil_of_once {stop : α} {init : List α} (free : stop ∉ init) {front back : List α}
    (whole : init ++ [stop] = front ++ stop :: back) : back = [] := by
  rcases List.eq_nil_or_concat back with nil | ⟨middle, c, rfl⟩
  · exact nil
  · have same : init = front ++ stop :: middle := by
      have short := congrArg List.dropLast whole
      rwa [List.dropLast_concat, List.concat_eq_append, ← List.cons_append, ← List.append_assoc,
        List.dropLast_concat] at short
    exact absurd (same ▸ List.mem_append_right front List.mem_cons_self) free

/-- The same where blanks are put behind both sides. -/
theorem joined_of_stop {stop : α} {init first last' first' : List α}
    (once : ∀ front back, t = front ++ stop :: back → back = [])
    (begins : t.head? ≠ some blank) (ends : t.getLast? ≠ some blank)
    (pads : Pads blank (init ++ [stop] ++ [blank]) last') (pads' : Pads blank first first')
    (whole : u ++ t ++ v = last' ++ first') :
    (∃ more, init ++ [stop] = u ++ t ++ more) ∨ t <:+: first := by
  obtain ⟨k, rfl⟩ := pads
  have parts : init ++ [stop] ++ [blank] ++ List.replicate k blank ++ first' =
      init ++ [stop] ++ (List.replicate (k + 1) blank ++ first') := by
    simp [List.replicate_succ]
  rcases append_of_stop once (whole.trans parts) with before | behind
  · exact .inl before
  · exact .inr (infix_of_pads pads' (infix_of_replicate_append behind begins) ends)

/-! ### The lines of a text -/

theorem flatten_of_single {pieces : List (List (List α))}
    (single : ∀ cut ∈ pieces, cut.length = 1) : pieces.flatten = pieces.map List.flatten := by
  induction pieces with
  | nil => rfl
  | cons cut rest ih =>
      obtain ⟨piece, rfl⟩ := List.length_eq_one_iff.mp (single cut List.mem_cons_self)
      rw [List.flatten_cons, List.map_cons, ih fun cut member => single cut (.tail _ member)]
      simp

section

variable [BEq α] {sep : α}

/-- **The last line of a text goes on with the first one of the next.** -/
theorem splitOn_append (a b : List α) : ∃ init last first rest, a.splitOn sep = init ++ [last] ∧
    b.splitOn sep = first :: rest ∧ (a ++ b).splitOn sep = init ++ (last ++ first) :: rest := by
  obtain ⟨first, rest, second⟩ := List.exists_cons_of_ne_nil (List.splitOn_ne_nil sep b)
  induction a with
  | nil => exact ⟨[], [], first, rest, List.splitOn_nil sep, second, second⟩
  | cons c a ih =>
      obtain ⟨init, last, first', rest', lines, lines', whole⟩ := ih
      rw [List.cons_append, List.splitOn_cons_eq_if_modifyHead, List.splitOn_cons_eq_if_modifyHead,
        lines, whole]
      by_cases ends : (c == sep) = true
      · rw [if_pos ends, if_pos ends]
        exact ⟨[] :: init, last, first', rest', rfl, lines', rfl⟩
      · rw [if_neg ends, if_neg ends]
        cases init with
        | nil => exact ⟨[], c :: last, first', rest', rfl, lines', rfl⟩
        | cons line init => exact ⟨(c :: line) :: init, last, first', rest', rfl, lines', rfl⟩

/-- A line of two padded texts behind one another is a padded line of the texts themselves, or the
one where they meet. -/
theorem mem_append_of_padded {a a' b b' x : List α}
    (one : Padded blank (a.splitOn sep) (a'.splitOn sep))
    (two : Padded blank (b.splitOn sep) (b'.splitOn sep)) (member : x ∈ (a' ++ b').splitOn sep) :
    (∃ line ∈ (a ++ b).splitOn sep, Pads blank line x) ∨
      ∃ init last first rest last' first', a.splitOn sep = init ++ [last] ∧
        b.splitOn sep = first :: rest ∧ last ++ first ∈ (a ++ b).splitOn sep ∧
        Pads blank last last' ∧ Pads blank first first' ∧ x = last' ++ first' := by
  obtain ⟨init, last, first, rest, ofA, ofB, whole⟩ := @splitOn_append α _ sep a b
  obtain ⟨init', last', first', rest', ofA', ofB', whole'⟩ := @splitOn_append α _ sep a' b'
  rw [ofA, ofA'] at one
  rw [ofB, ofB'] at two
  obtain ⟨before, pads⟩ := one.concat
  obtain ⟨pads', behind⟩ := List.forall₂_cons.mp two
  have behind : Padded blank rest rest' := behind
  rw [whole'] at member
  rw [whole]
  rcases List.mem_append.mp member with early | member
  · obtain ⟨line, inside, pads⟩ := before.mem early
    exact .inl ⟨line, List.mem_append_left _ inside, pads⟩
  rcases List.mem_cons.mp member with rfl | late
  · exact .inr ⟨init, last, first, rest, last', first', ofA, ofB,
      List.mem_append_right init List.mem_cons_self, pads, pads', rfl⟩
  · obtain ⟨line, inside, pads⟩ := behind.mem late
    exact .inl ⟨line, List.mem_append_right init (.tail _ inside), pads⟩

/-- A text broken anywhere, with blanks behind each line; where it is not to be broken, each line is
one piece. -/
def Laid (sep blank : α) (broken : Prop) (text out : List α) : Prop :=
  ∃ pieces : List (List (List α)), pieces.map List.flatten = text.splitOn sep ∧
    (¬ broken → ∀ cut ∈ pieces, cut.length = 1) ∧
    Padded blank pieces.flatten (out.splitOn sep)

variable {broken : Prop} {text out : List α}

theorem Laid.padded (laid : Laid sep blank broken text out) (whole : ¬ broken) :
    Padded blank (text.splitOn sep) (out.splitOn sep) := by
  obtain ⟨pieces, lines, single, related⟩ := laid
  rwa [flatten_of_single (single whole), lines] at related

/-- A line of the layout is a part of one of the text, with blanks. -/
theorem Laid.mem (laid : Laid sep blank broken text out) (member : line ∈ out.splitOn sep) :
    ∃ before ∈ text.splitOn sep, ∃ piece, piece <:+: before ∧ Pads blank piece line := by
  obtain ⟨pieces, lines, _, related⟩ := laid
  obtain ⟨piece, inside, pads⟩ := related.mem member
  obtain ⟨cut, ofLine, inCut⟩ := List.mem_flatten.mp inside
  exact ⟨cut.flatten, lines ▸ List.mem_map_of_mem ofLine, piece,
    List.infix_of_mem_flatten inCut, pads⟩

/-- A text as it is. -/
theorem Laid.refl (text : List α) : Laid sep blank broken text text := by
  have single : ∀ cut ∈ (text.splitOn sep).map fun line => [line], cut.length = 1 := by simp
  have lines : ((text.splitOn sep).map fun line => [line]).map List.flatten = text.splitOn sep := by
    rw [List.map_map, List.map_congr_left (g := id) fun line _ => by simp, List.map_id]
  refine ⟨_, lines, fun _ => single, ?_⟩
  rw [flatten_of_single single, lines]
  exact Padded.refl _

variable [LawfulBEq α]

theorem not_mem_line (member : line ∈ text.splitOn sep) : sep ∉ line := by
  intro inside
  rw [List.splitOn_eq_splitOnP] at member
  simpa using free_of_mem_splitOnP member sep inside

/-- **Texts with a separator between them** have the lines of each. -/
theorem splitOn_intercalate_texts {texts : List (List α)} (some : texts ≠ []) :
    ([sep].intercalate texts).splitOn sep = texts.flatMap (List.splitOn sep) := by
  induction texts with
  | nil => exact absurd rfl some
  | cons text rest ih =>
      cases rest with
      | nil => simp
      | cons next others =>
          rw [List.intercalate_cons_cons, List.append_assoc, List.singleton_append,
            List.splitOn_append_cons_self, ih (List.cons_ne_nil next others)]
          rfl

end

end Lines
