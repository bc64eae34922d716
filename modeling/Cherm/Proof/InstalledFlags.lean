/-
**Which plugins the store list shows as installed.**

An event of the core only sets flags: it marks the last row of each name it has, and appends what has
no row. Nothing is taken back, so a removed plugin stays marked.

* `mergeInto_eq`: the list after an event.
* `follows_iff`: it is right after an event exactly if the event `Fits` the list before.
* `installed_flags`: for every run of the terminal beside the plugin manager.
-/

import Cherm.Proof.PluginContent
import Cherm.Tui.Ideal
import Cherm.Tui.Plugins

namespace ChermTui

open ChermPlugins (Call Disk Event World Installed cleanDisplay installedValues loadInstalled)

/-! ### The list after an event -/

/-- The row of a plugin of the event, if it is that row. -/
def StorePlugin.mark (rows : List StorePlugin) (i : Nat) (p q : StorePlugin) : StorePlugin :=
  if rowOf rows q.name = some i then
    { p with installed := true, active := q.active,
             version := if p.version = "" then q.version else p.version }
  else p

/-- A row after an event. -/
def StorePlugin.marked (rows event : List StorePlugin) (i : Nat) (p : StorePlugin) : StorePlugin :=
  event.foldl (StorePlugin.mark rows i) p

/-- The plugins of an event that have no row. -/
def unlisted (rows event : List StorePlugin) : List StorePlugin :=
  event.filter fun q => rowOf rows q.name = none

def StorePlugin.asInstalled (p : StorePlugin) : StorePlugin := { p with installed := true }

section

variable {rows event : List StorePlugin} {name : String} {i : Nat} {p q : StorePlugin}

theorem rowOf_some (found : rowOf rows name = some i) : ∃ p, rows[i]? = some p ∧ p.name = name := by
  have member := List.mem_of_getLast? found
  rw [List.mem_filter, Option.any_eq_true] at member
  obtain ⟨_, p, isRow, named⟩ := member
  exact ⟨p, isRow, of_decide_eq_true named⟩

theorem rowOf_none : rowOf rows name = none ↔ ∀ p ∈ rows, p.name ≠ name := by
  rw [rowOf, List.getLast?_eq_none_iff, List.filter_eq_nil_iff]
  constructor
  · intro none p member named
    obtain ⟨i, below, rfl⟩ := List.getElem_of_mem member
    refine none i (List.mem_range.mpr below) ?_
    rw [List.getElem?_eq_getElem below]
    exact decide_eq_true named
  · intro others i inside found
    obtain ⟨p, isRow, named⟩ := (Option.any_eq_true _ _).mp found
    exact others p (List.mem_of_getElem? isRow) (of_decide_eq_true named)

/-- A row that is the last one of a name has that name. -/
theorem name_of_rowOf (isRow : rows[i]? = some p) (found : rowOf rows name = some i) :
    p.name = name := by
  obtain ⟨r, isRow', named⟩ := rowOf_some found
  obtain rfl := Option.some.inj (isRow.symm.trans isRow')
  exact named

theorem marked_cons : p.marked rows (q :: event) i = (p.mark rows i q).marked rows event i := rfl

theorem mark_name : (p.mark rows i q).name = p.name := by
  unfold StorePlugin.mark
  split <;> rfl

theorem marked_name : (p.marked rows event i).name = p.name := by
  induction event generalizing p with
  | nil => rfl
  | cons first rest ih => rw [marked_cons, ih, mark_name]

theorem marked_of_unnamed (unnamed : ∀ q ∈ event, rowOf rows q.name ≠ some i) :
    p.marked rows event i = p := by
  induction event generalizing p with
  | nil => rfl
  | cons first rest ih =>
      have same : p.mark rows i first = p := if_neg (unnamed first List.mem_cons_self)
      rw [marked_cons, same, ih fun q member => unnamed q (List.mem_cons_of_mem first member)]

/-- The last plugin of the event that has this row decides. -/
theorem marked_of_named (named : ∃ q ∈ event, rowOf rows q.name = some i) :
    (p.marked rows event i).installed = true ∧
      ∃ q ∈ event, rowOf rows q.name = some i ∧ (p.marked rows event i).active = q.active := by
  induction event generalizing p with
  | nil => simp at named
  | cons first rest ih =>
      rw [marked_cons]
      by_cases later : ∃ q ∈ rest, rowOf rows q.name = some i
      · obtain ⟨installed, q, member, found, active⟩ := ih (p := p.mark rows i first) later
        exact ⟨installed, q, List.mem_cons_of_mem first member, found, active⟩
      · have here : rowOf rows first.name = some i := by
          obtain ⟨q, member, found⟩ := named
          rcases List.mem_cons.mp member with rfl | member
          · exact found
          · exact absurd ⟨q, member, found⟩ later
        rw [marked_of_unnamed fun q member found => later ⟨q, member, found⟩, StorePlugin.mark,
          if_pos here]
        exact ⟨rfl, first, List.mem_cons_self, here, rfl⟩

theorem modify_append_left {α : Type} (change : α → α) {base extra : List α} {i : Nat}
    (below : i < base.length) :
    (base ++ extra).modify i change = base.modify i change ++ extra := by
  apply List.ext_getElem?
  intro j
  simp only [List.getElem?_modify, List.getElem?_append, List.length_modify]
  by_cases inside : j < base.length
  · rw [if_pos inside, if_pos inside]
  · have other : i ≠ j := by omega
    simp [if_neg inside, if_neg other]

/-- **The list after an event**: each row with what the event says of it, then what has none. -/
theorem mergeInto_eq (base extra : List StorePlugin) (long : rows.length ≤ base.length) :
    mergeInto rows event (base ++ extra) =
      base.mapIdx (fun i p => p.marked rows event i) ++
        (extra ++ (unlisted rows event).map StorePlugin.asInstalled) := by
  induction event generalizing base extra with
  | nil =>
      have same : base.mapIdx (fun i p => p.marked rows [] i) = base := by
        apply List.ext_getElem?
        intro i
        rw [List.getElem?_mapIdx]
        cases base[i]? <;> rfl
      rw [same, mergeInto]
      simp [unlisted]
  | cons first rest ih =>
      cases found : rowOf rows first.name with
      | none =>
          have alike : (fun i (p : StorePlugin) => p.marked rows (first :: rest) i) =
              fun i p => p.marked rows rest i := by
            funext i p
            rw [marked_cons, StorePlugin.mark, found, if_neg (by simp)]
          rw [mergeInto, found]
          dsimp only
          rw [List.append_assoc, ih base _ long, alike]
          simp [unlisted, found, StorePlugin.asInstalled]
      | some place =>
          obtain ⟨r, isRow, _⟩ := rowOf_some found
          have below : place < base.length :=
            lt_of_lt_of_le (List.getElem?_eq_some_iff.mp isRow).1 long
          rw [mergeInto, found]
          dsimp only
          rw [modify_append_left _ below, ih _ _ (by simpa using long)]
          have rest' : unlisted rows (first :: rest) = unlisted rows rest := by
            simp [unlisted, found]
          rw [rest']
          congr 1
          apply List.ext_getElem?
          intro i
          rw [List.getElem?_mapIdx, List.getElem?_mapIdx, List.getElem?_modify]
          cases base[i]? with
          | none => rfl
          | some p =>
              simp only [Option.map_some, marked_cons, StorePlugin.mark, found,
                Option.some.injEq]
              split <;> rfl

theorem merged_eq : mergeInto rows event rows =
    rows.mapIdx (fun i p => p.marked rows event i) ++
      (unlisted rows event).map StorePlugin.asInstalled := by
  have whole := @mergeInto_eq rows event rows [] (Nat.le_refl rows.length)
  rwa [List.append_nil, List.nil_append] at whole

theorem mem_merged : p ∈ mergeInto rows event rows ↔
    (∃ (i : Nat) (r : StorePlugin), rows[i]? = some r ∧ r.marked rows event i = p) ∨
      ∃ q ∈ event, rowOf rows q.name = none ∧ q.asInstalled = p := by
  rw [merged_eq, List.mem_append, List.mem_map (f := StorePlugin.asInstalled)]
  refine or_congr ?_ ?_
  · rw [List.mem_iff_getElem?]
    simp only [List.getElem?_mapIdx, Option.map_eq_some_iff]
  · simp only [unlisted, List.mem_filter, decide_eq_true_eq, and_assoc]

theorem names_merged : (mergeInto rows event rows).map StorePlugin.name =
    rows.map StorePlugin.name ++ (unlisted rows event).map StorePlugin.name := by
  rw [merged_eq, List.map_append, List.map_map]
  congr 1
  apply List.ext_getElem?
  intro i
  rw [List.getElem?_map, List.getElem?_mapIdx, List.getElem?_map, Option.map_map]
  congr 1
  funext r
  exact marked_name

/-! ### When the list is right -/

/-- The list says what the event says. -/
structure Follows (rows event after : List StorePlugin) : Prop where
  installed : ∀ p ∈ after, p.installed = true ↔ ∃ q ∈ event, q.name = p.name
  active : ∀ p ∈ after, ∀ q ∈ event, q.name = p.name → p.active = q.active
  once : (rows.map StorePlugin.name).Nodup → (after.map StorePlugin.name).Nodup
  complete : ∀ q ∈ event, ∃ p ∈ after, p.name = q.name

/-- The event takes nothing back, sets the flags of no row but the last one of a name, and has no
name twice. -/
structure Fits (rows event : List StorePlugin) : Prop where
  /-- A plugin that the event does not have is not marked. -/
  absent : ∀ p ∈ rows, (∀ q ∈ event, q.name ≠ p.name) → p.installed = false
  /-- A row with a later one of its name has the flags already. -/
  shadowed : ∀ (i : Nat) (p : StorePlugin), rows[i]? = some p → rowOf rows p.name ≠ some i →
    ∀ q ∈ event, q.name = p.name → p.installed = true ∧ p.active = q.active
  agree : ∀ q ∈ event, ∀ r ∈ event, q.name = r.name → q.active = r.active
  fresh : (rows.map StorePlugin.name).Nodup → ((unlisted rows event).map StorePlugin.name).Nodup

theorem unnamed_of_absent (isRow : rows[i]? = some p) (absent : ∀ q ∈ event, q.name ≠ p.name) :
    ∀ q ∈ event, rowOf rows q.name ≠ some i :=
  fun q member found => absent q member (name_of_rowOf isRow found).symm

theorem unnamed_of_shadowed (isRow : rows[i]? = some p) (shadowed : rowOf rows p.name ≠ some i) :
    ∀ q ∈ event, rowOf rows q.name ≠ some i := by
  intro q _ found
  rw [← name_of_rowOf isRow found] at found
  exact shadowed found

/-- Every plugin of the event is in the list. -/
theorem merged_complete (member : q ∈ event) : ∃ p ∈ mergeInto rows event rows, p.name = q.name := by
  cases found : rowOf rows q.name with
  | none => exact ⟨_, mem_merged.mpr (.inr ⟨q, member, found, rfl⟩), rfl⟩
  | some i =>
      obtain ⟨r, isRow, named⟩ := rowOf_some found
      exact ⟨_, mem_merged.mpr (.inl ⟨i, r, isRow, rfl⟩), marked_name.trans named⟩

theorem unlisted_disjoint :
    (rows.map StorePlugin.name).Disjoint ((unlisted rows event).map StorePlugin.name) := by
  intro name first second
  obtain ⟨p, isRow, rfl⟩ := List.mem_map.mp first
  obtain ⟨q, member, same⟩ := List.mem_map.mp second
  have noRow : rowOf rows q.name = none := of_decide_eq_true (List.mem_filter.mp member).2
  exact rowOf_none.mp noRow p isRow same.symm

theorem Follows.fits (follows : Follows rows event (mergeInto rows event rows)) :
    Fits rows event := by
  have kept : ∀ {i : Nat} {p : StorePlugin}, rows[i]? = some p →
      (∀ q ∈ event, rowOf rows q.name ≠ some i) → p ∈ mergeInto rows event rows :=
    fun isRow unnamed => mem_merged.mpr (.inl ⟨_, _, isRow, marked_of_unnamed unnamed⟩)
  refine ⟨fun p member absent => ?_, fun i p isRow shadowed q member named => ?_,
    fun q member r member' named => ?_, fun nodup => ?_⟩
  · obtain ⟨i, isRow⟩ := List.mem_iff_getElem?.mp member
    have stays := kept isRow (unnamed_of_absent isRow absent)
    rw [← Bool.not_eq_true, follows.installed p stays]
    rintro ⟨q, member', named⟩
    exact absent q member' named
  · have stays := kept isRow (unnamed_of_shadowed isRow shadowed)
    exact ⟨(follows.installed p stays).mpr ⟨q, member, named⟩,
      follows.active p stays q member named⟩
  · obtain ⟨p, shown, named'⟩ := follows.complete q member
    rw [← follows.active p shown q member named'.symm,
      follows.active p shown r member' (named.symm.trans named'.symm)]
  · have all := follows.once nodup
    rw [names_merged] at all
    exact (List.nodup_append'.mp all).2.1

/-- A row that the event names has the flags the event has for it. -/
theorem Fits.row_flags (fits : Fits rows event) (isRow : rows[i]? = some p) (member : q ∈ event)
    (named : q.name = p.name) :
    (p.marked rows event i).installed = true ∧ (p.marked rows event i).active = q.active := by
  by_cases last : rowOf rows p.name = some i
  · obtain ⟨installed, r, member', found, active⟩ :=
      marked_of_named (p := p) ⟨q, member, named.symm ▸ last⟩
    have same : r.name = q.name := (name_of_rowOf isRow found).symm.trans named.symm
    exact ⟨installed, active.trans (fits.agree r member' q member same)⟩
  · rw [marked_of_unnamed (unnamed_of_shadowed isRow last)]
    exact fits.shadowed i p isRow last q member named

theorem Fits.follows (fits : Fits rows event) :
    Follows rows event (mergeInto rows event rows) := by
  refine ⟨fun p shown => ?_, fun p shown q member named => ?_, fun nodup => ?_,
    fun q member => merged_complete member⟩
  · rcases mem_merged.mp shown with ⟨i, r, isRow, rfl⟩ | ⟨r, member, _, rfl⟩
    · rw [marked_name]
      constructor
      · intro installed
        by_contra absent
        have absent : ∀ q ∈ event, q.name ≠ r.name :=
          fun q member named => absent ⟨q, member, named⟩
        rw [marked_of_unnamed (unnamed_of_absent isRow absent),
          fits.absent r (List.mem_of_getElem? isRow) absent] at installed
        cases installed
      · rintro ⟨q, member, named⟩
        exact (fits.row_flags isRow member named).1
    · exact iff_of_true rfl ⟨r, member, rfl⟩
  · rcases mem_merged.mp shown with ⟨i, r, isRow, rfl⟩ | ⟨r, member', _, rfl⟩
    · rw [marked_name] at named
      exact (fits.row_flags isRow member named).2
    · exact fits.agree r member' q member named.symm
  · rw [names_merged]
    exact List.nodup_append'.mpr ⟨nodup, fits.fresh nodup, unlisted_disjoint⟩

/-- **The list is right after an event exactly if the event fits it.** -/
theorem follows_iff : Follows rows event (mergeInto rows event rows) ↔ Fits rows event :=
  ⟨Follows.fits, Fits.follows⟩

end

/-! ### Runs -/

section

variable [Terminal] [Layout]

/-- The list is right after an event of the core. -/
def Followed (msg : Msg Terminal.Key) (m : Model) : Prop :=
  ∀ event, msg = .installedPlugins event →
    Follows m.storePlugins event (turn msg m).storePlugins

def Fitting (msg : Msg Terminal.Key) (m : Model) : Prop :=
  ∀ event, msg = .installedPlugins event → Fits m.storePlugins event

theorem followed_iff (msg : Msg Terminal.Key) (m : Model) : Followed msg m ↔ Fitting msg m := by
  constructor
  · rintro followed event rfl
    exact follows_iff.mp (followed event rfl)
  · rintro fitting event rfl
    exact follows_iff.mpr (fitting event rfl)

end

section

variable [ChermPlugins.Crates]

/-- A call that tells what is installed tells it last, of the directory it leaves. -/
theorem told_installed {call : Call} {world : World}
    (tells : ∃ plugins, .installedPlugins plugins ∈ told call world) :
    ∃ others, told call world =
      others ++ [.installedPlugins (installedValues (ChermPlugins.step call world).disk)] := by
  obtain ⟨new, events, all⟩ := ChermPlugins.step_told call world
  have is : told call world = new := by rw [told, events, List.drop_left]
  obtain ⟨plugins, member⟩ := tells
  rw [is] at member ⊢
  have last : ∀ notices : List Event, (∀ event ∈ notices, event ≠ .installedPlugins plugins) →
      new <+: ChermPlugins.eventsOf (ChermPlugins.step call world).disk notices →
      ∃ others, new =
        others ++ [.installedPlugins (installedValues (ChermPlugins.step call world).disk)] := by
    intro notices others part
    unfold ChermPlugins.eventsOf at part
    rw [← List.append_assoc, List.prefix_concat_iff] at part
    rcases part with whole | part
    · exact ⟨_, whole⟩
    · have inside := part.subset member
      simp only [ChermPlugins.contentEvents, List.cons_append, List.nil_append, List.mem_cons,
        reduceCtorEq, false_or] at inside
      exact absurd rfl (others _ inside)
  cases all with
  | nothing => simp at member
  | refused => simp at member
  | absent => simp at member
  | installed _ _ part => exact last _ (by simp [ChermPlugins.installNotices]) part
  | removed _ part => exact last _ (by simp) part

variable [Terminal]

/-- The plugins shown as installed are those that are, by the names they are shown with. -/
def ShowsInstalled (m : Model) (disk : Disk) : Prop :=
  ∀ name, (∃ p ∈ m.storePlugins, p.name = name ∧ p.installed = true) ↔
    ∃ i ∈ (loadInstalled disk).plugins, cleanDisplay i.manifest.name 64 = name

/-- A list that is right after the event shows what is installed. -/
theorem Follows.shows {m : Model} {rows : List StorePlugin} {disk : Disk}
    (follows : Follows rows ((installedValues disk).map StorePlugin.read) m.storePlugins) :
    ShowsInstalled m disk := by
  have names : ∀ name, (∃ q ∈ (installedValues disk).map StorePlugin.read, q.name = name) ↔
      ∃ i ∈ (loadInstalled disk).plugins, cleanDisplay i.manifest.name 64 = name := by
    intro name
    unfold installedValues
    simp [read_name]
  intro name
  rw [← names name]
  constructor
  · rintro ⟨p, shown, rfl, installed⟩
    exact (follows.installed p shown).mp installed
  · rintro ⟨q, member, rfl⟩
    obtain ⟨p, shown, named⟩ := follows.complete q member
    exact ⟨p, shown, named, (follows.installed p shown).mpr ⟨q, member, named.symm⟩⟩

variable [Layout]

/-- The list is right after every event of an input; and after a call that tells what is installed,
it shows just that. -/
structure Accurate (input : Input Terminal.Key) (s : Together) : Prop where
  follows : Steps.Each turn Followed (input.messages s.world) s.model
  shows : ∀ call, input = .call call → (∃ plugins, .installedPlugins plugins ∈ told call s.world) →
    ShowsInstalled (Together.step input s).model (Together.step input s).world.disk

/-- Every event of an input fits the list it finds. -/
def FitsAll (input : Input Terminal.Key) (s : Together) : Prop :=
  Steps.Each turn Fitting (input.messages s.world) s.model

theorem accurate_iff (input : Input Terminal.Key) (s : Together) :
    Accurate input s ↔ FitsAll input s := by
  have same : @Followed _ _ = Fitting := by
    funext msg m
    exact propext (followed_iff msg m)
  have each : Steps.Each turn Followed (input.messages s.world) s.model ↔ FitsAll input s := by
    rw [same, FitsAll]
  refine ⟨fun accurate => each.mp accurate.follows, fun fits => ⟨each.mpr fits, ?_⟩⟩
  rintro call rfl tells
  obtain ⟨others, is⟩ := told_installed tells
  have follows := each.mpr fits
  have messages : (Input.call call : Input Terminal.Key).messages s.world = others.map toMsg ++
      [.installedPlugins ((installedValues (ChermPlugins.step call s.world).disk).map
        StorePlugin.read)] := by
    show (told call s.world).map toMsg = _
    rw [is, List.map_append]
    rfl
  rw [messages, Steps.each_append] at follows
  have last := follows.2.1 _ rfl
  have model : (Together.step (.call call) s).model = turn (.installedPlugins
      ((installedValues (ChermPlugins.step call s.world).disk).map StorePlugin.read))
        (Steps.run turn (others.map toMsg) s.model) := by
    show Steps.run turn ((Input.call call).messages s.world) s.model = _
    rw [messages, Steps.run, List.foldl_append]
    rfl
  rw [model]
  exact last.shows

/-- **The flags follow the core** in a run exactly if each event fits the list it finds. -/
theorem installed_flags (inputs : List (Input Terminal.Key)) (s : Together) :
    Steps.Each Together.step Accurate inputs s ↔ Steps.Each Together.step FitsAll inputs s :=
  ⟨fun each => each.mono fun input s => (accurate_iff input s).mp,
    fun each => each.mono fun input s => (accurate_iff input s).mpr⟩

end

namespace Ideal

attribute [local instance] terminal layout ChermPlugins.Ideal.crates

def neon : StorePlugin where
  name := "neon"
  displayName := "Neon"
  version := "1.0.0"
  kind := "theme"
  category := "official"
  description := ""
  author := ""
  license := ""
  sourceURL := ""
  permissions := []
  installed := true
  active := true

/-- A plugin is installed and removed: it is not among the installed ones any more, and stays marked. -/
theorem removed_stays : ¬ Steps.Each Together.step Accurate
    [.message (.installedPlugins [neon]), .message (.installedPlugins [])]
      ⟨ChermPlugins.World.empty, newModel⟩ := by
  intro each
  have fits := ((accurate_iff _ _).mp each.2.1).1 [] rfl
  have still := fits.absent neon List.mem_cons_self fun q member => absurd member List.not_mem_nil
  cases still

end Ideal

end ChermTui
