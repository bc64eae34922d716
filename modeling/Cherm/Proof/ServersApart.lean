/-
**One server's chats at a time.**

Several links are alive at once, and each has its events. Some of these do not name their server, so
here an event comes with the server it is of, and is logged with it.

* `Links`: the update loop, the server that is active in the core, and the log.
* `Of`: a chat, and all its messages, are told of by one server.
* `Clean` is the invariant: all that is held is told of by the server of the address.
* `Heard`: what is announced is of the active server.
* `servers_apart`: the run.
-/

import Cherm.Lib.Steps
import Cherm.Tui.Ideal
import Cherm.Tui.Quiet

namespace ChermTui

section

variable [Terminal]

/-! ### What the servers have told -/

/-- The event names a chat. -/
def Msg.Names {Key : Type} (id : String) : Msg Key → Prop
  | .chats _ infos => ∃ info ∈ infos, info.id = id
  | .openChat chat | .history chat _ | .message chat _ => chat = id
  | _ => False

/-- It describes a chat; one that is only named is a DM. -/
def Msg.Describes {Key : Type} (row : ChatInfo) : Msg Key → Prop
  | .chats _ infos => ∃ info ∈ infos, info.id = row.id ∧ info.kind = row.kind ∧
      info.title = row.title
  | .history chat _ | .message chat _ => chat = row.id ∧ row.kind = "dm" ∧ row.title = chat
  | _ => False

/-- It brings a message of a chat. -/
def Msg.Brings {Key : Type} (chat : String) (message : Message) : Msg Key → Prop
  | .history named messages => named = chat ∧ message ∈ messages
  | .message named brought => named = chat ∧ message = brought
  | _ => False

/-- The events so far, with their servers. -/
abbrev Log := List (String × Msg Terminal.Key)

/-- A server has told so. -/
def Said (log : Log) (server : String) (told : Msg Terminal.Key → Prop) : Prop :=
  ∃ entry ∈ log, entry.1 = server ∧ told entry.2

/-- The server has told of the chat and of its messages. -/
structure Of (log : Log) (server : String) (state : ChatState) : Prop where
  row : Said log server (Msg.Describes state.info)
  messages : ∀ message ∈ state.messages, Said log server (Msg.Brings state.info.id message)

theorem Said.mono {log : Log} {server : String} {told : Msg Terminal.Key → Prop}
    (said : Said log server told) (more : Log) : Said (log ++ more) server told := by
  obtain ⟨entry, member, told⟩ := said
  exact ⟨entry, List.mem_append_left _ member, told⟩

theorem Said.last (log : Log) {server : String} {msg : Msg Terminal.Key}
    {told : Msg Terminal.Key → Prop} (is : told msg) : Said (log ++ [(server, msg)]) server told :=
  ⟨(server, msg), List.mem_append_right _ (List.mem_singleton_self _), rfl, is⟩

theorem Of.mono {log : Log} {server : String} {state : ChatState} (held : Of log server state)
    (more : Log) : Of (log ++ more) server state :=
  ⟨held.row.mono more, fun message member => (held.messages message member).mono more⟩

/-- What is described is named. -/
theorem Of.named {log : Log} {server : String} {state : ChatState} (held : Of log server state) :
    Said log server (Msg.Names state.info.id) := by
  obtain ⟨⟨origin, msg⟩, member, is, described⟩ := held.row
  refine ⟨(origin, msg), member, is, ?_⟩
  cases msg with
  | chats _ infos =>
      obtain ⟨info, listed, same, _⟩ := described
      exact ⟨info, listed, same⟩
  | history | message => exact described.1
  | _ => cases described

/-! ### The states that are held -/

/-- At a place is the state of a chat, told of by the server. -/
def Knows (log : Log) (server : String) (states : List ChatState) (id : String) (place : Nat) :
    Prop :=
  ∃ state, states[place]? = some state ∧ state.info.id = id ∧ Of log server state

/-- What is known stays known. -/
def Kept (log : Log) (server : String) (states after : List ChatState) : Prop :=
  ∀ id place, Knows log server states id place → Knows log server after id place

theorem kept_append (log : Log) (server : String) (states more : List ChatState) :
    Kept log server states (states ++ more) := by
  rintro id place ⟨state, is, rest⟩
  refine ⟨state, ?_, rest⟩
  obtain ⟨bound, _⟩ := List.getElem?_eq_some_iff.mp is
  rw [List.getElem?_append_left bound]
  exact is

theorem kept_modify {log : Log} {server : String} {states : List ChatState} {place : Nat}
    {change : ChatState → ChatState}
    (keeps : ∀ state, states[place]? = some state → Of log server state →
      (change state).info.id = state.info.id ∧ Of log server (change state)) :
    Kept log server states (states.modify place change) := by
  rintro id other ⟨state, is, named, held⟩
  by_cases same : place = other
  · subst same
    obtain ⟨unnamed, after⟩ := keeps state is held
    refine ⟨change state, ?_, unnamed.trans named, after⟩
    rw [List.getElem?_modify_eq, is]
    rfl
  · refine ⟨state, ?_, named, held⟩
    rw [List.getElem?_modify_ne change states same]
    exact is

/-- A new state at the end. -/
theorem knows_new {log : Log} {server : String} {info : ChatInfo}
    (described : Said log server (Msg.Describes info)) (states : List ChatState) :
    Knows log server (states ++ [⟨info, [], false⟩]) info.id states.length := by
  refine ⟨⟨info, [], false⟩, ?_, rfl, described, nofun⟩
  rw [List.getElem?_append_right (Nat.le_refl _), Nat.sub_self]
  rfl

/-- The sidebar, the index and the name of the open chat are the server's. -/
structure Held (log : Log) (m : Model) : Prop where
  byID : ∀ id place, m.chatByID.get id = some place →
    Knows log m.serverAddr m.chatStates id place
  chats : ∀ place ∈ m.chats, ∃ id, Knows log m.serverAddr m.chatStates id place
  named : m.current ≠ "" → Said log m.serverAddr (Msg.Names m.current)

/-- And so are the messages that are shown. -/
structure Clean (log : Log) (m : Model) : Prop extends Held log m where
  viewport : ∀ message ∈ m.viewport, Said log m.serverAddr (Msg.Brings m.current message)

/-- Nothing is held. -/
structure Model.Blank (m : Model) : Prop where
  chats : m.chats = []
  chatByID : m.chatByID.entries = []
  current : m.current = ""
  viewport : m.viewport = []

theorem Held.mono {log : Log} {m : Model} (held : Held log m) (more : Log) :
    Held (log ++ more) m := by
  have knows : ∀ {id place}, Knows log m.serverAddr m.chatStates id place →
      Knows (log ++ more) m.serverAddr m.chatStates id place :=
    fun ⟨state, is, named, held⟩ => ⟨state, is, named, held.mono more⟩
  refine ⟨?_, ?_, ?_⟩
  · exact fun id place known => knows (held.byID id place known)
  · intro place listed
    obtain ⟨id, known⟩ := held.chats place listed
    exact ⟨id, knows known⟩
  · exact fun isOpen => (held.named isOpen).mono more

theorem Clean.mono {log : Log} {m : Model} (clean : Clean log m) (more : Log) :
    Clean (log ++ more) m :=
  ⟨clean.toHeld.mono more, fun message shown => (clean.viewport message shown).mono more⟩

theorem Clean.congr {log : Log} {m m' : Model} (clean : Clean log m) (talk : m'.talk = m.talk)
    (addr : m'.serverAddr = m.serverAddr) : Clean log m' := by
  obtain ⟨states, talk⟩ := Prod.mk.inj talk
  obtain ⟨chats, talk⟩ := Prod.mk.inj talk
  obtain ⟨chatByID, talk⟩ := Prod.mk.inj talk
  obtain ⟨current, viewport⟩ := Prod.mk.inj talk
  refine ⟨⟨?_, ?_, ?_⟩, ?_⟩
  · rw [states, chatByID, addr]
    exact clean.byID
  · rw [states, chats, addr]
    exact clean.chats
  · rw [current, addr]
    exact clean.named
  · rw [viewport, current, addr]
    exact clean.viewport

theorem clean_blank (log : Log) {m : Model} (blank : m.Blank) : Clean log m := by
  refine ⟨⟨?_, ?_, ?_⟩, ?_⟩
  · intro id place known
    have empty : m.chatByID = ∅ := AList.ext blank.chatByID
    rw [empty, Table.get_empty] at known
    cases known
  · rw [blank.chats]
    nofun
  · exact fun isOpen => absurd blank.current isOpen
  · rw [blank.viewport]
    nofun

/-! ### What the handlers keep -/

theorem clean_refresh {log : Log} {m : Model} (held : Held log m) :
    Clean log m.refreshViewport := by
  refine ⟨⟨held.byID, held.chats, held.named⟩, ?_⟩
  intro message shown
  simp only [Model.refreshViewport] at shown
  cases found : m.chat m.current with
  | none =>
      rw [found] at shown
      cases shown
  | some chat =>
      rw [found] at shown
      obtain ⟨place, known, at_place⟩ := Option.bind_eq_some_iff.mp found
      obtain ⟨state, is, named, told⟩ := held.byID m.current place known
      obtain rfl := Option.some.inj (is.symm.trans at_place)
      have said := told.messages message shown
      rw [named] at said
      exact said

theorem clean_layout {log : Log} {m : Model} (clean : Clean log m) : Clean log m.layout := by
  unfold Model.layout
  split
  · exact clean
  · exact clean_refresh ⟨clean.byID, clean.chats, clean.named⟩

theorem clean_enterChat {log : Log} {m : Model} (clean : Clean log m) :
    Clean log m.enterChat :=
  clean_layout (clean.congr rfl rfl)

/-- The states change, and what is held is still known. -/
theorem Held.onStates {log : Log} {m : Model} (held : Held log m) {states : List ChatState}
    (kept : Kept log m.serverAddr m.chatStates states) :
    Held log { m with chatStates := states } := by
  refine ⟨?_, ?_, held.named⟩
  · exact fun id place known => kept id place (held.byID id place known)
  · intro place listed
    obtain ⟨id, known⟩ := held.chats place listed
    exact ⟨id, kept id place known⟩

theorem clean_openChat {log : Log} {m : Model} (held : Held log m) {id : String}
    (named : Said log m.serverAddr (Msg.Names id)) : Clean log (m.openChat id).1 := by
  have opened : Held log { m with current := id } := ⟨held.byID, held.chats, fun _ => named⟩
  unfold Model.openChat
  dsimp only
  split
  · refine clean_refresh (opened.onStates (kept_modify ?_))
    exact fun state _ told => ⟨rfl, told.row, told.messages⟩
  · exact clean_refresh opened

/-- The rows and the index that are read from a list are known, and so is all that was. -/
structure Reads (log : Log) (server : String) (states : List ChatState)
    (read : List ChatState × List Nat × Table String Nat) : Prop where
  rows : ∀ place ∈ read.2.1, ∃ id, Knows log server read.1 id place
  index : ∀ id place, read.2.2.get id = some place → Knows log server read.1 id place
  kept : Kept log server states read.1

/-- A row before the others. -/
theorem Reads.cons {log : Log} {server : String} {states after : List ChatState}
    {read : List ChatState × List Nat × Table String Nat} {id : String} {place : Nat}
    (reads : Reads log server after read) (kept : Kept log server states after)
    (known : Knows log server after id place) :
    Reads log server states (read.1, place :: read.2.1, read.2.2) :=
  ⟨List.forall_mem_cons.mpr ⟨⟨id, reads.kept _ _ known⟩, reads.rows⟩, reads.index,
    fun id other held => reads.kept id other (kept id other held)⟩

theorem index_put {log : Log} {server : String} {states : List ChatState}
    {byID : Table String Nat} {id : String} {place : Nat}
    (index : ∀ id place, byID.get id = some place → Knows log server states id place)
    (known : Knows log server states id place) :
    ∀ other at_place, (byID.put id place).get other = some at_place →
      Knows log server states other at_place := by
  intro other at_place is
  rw [Table.get_put] at is
  split at is
  · next same =>
    obtain rfl := Option.some.inj is
    rw [same]
    exact known
  · exact index other at_place is

/-- A row of the list takes the state its id had, or a new one. -/
theorem applyInfos_reads {log : Log} {server : String} {old : Table String Nat}
    (infos : List ChatInfo) (listed : ∀ info ∈ infos, Said log server (Msg.Describes info))
    (states : List ChatState) (byID : Table String Nat)
    (olds : ∀ id place, old.get id = some place → Knows log server states id place)
    (news : ∀ id place, byID.get id = some place → Knows log server states id place) :
    Reads log server states (applyInfos old infos states byID) := by
  induction infos generalizing states byID with
  | nil => exact ⟨nofun, news, fun _ _ known => known⟩
  | cons info rest ih =>
      obtain ⟨described, others⟩ := List.forall_mem_cons.mp listed
      have later : ∀ {place : Nat} {after : List ChatState}, Kept log server states after →
          Knows log server after info.id place →
          Reads log server after (applyInfos old rest after (byID.put info.id place)) := by
        intro place after kept known
        refine ih others after _ (fun id place is => kept id place (olds id place is)) ?_
        exact index_put (fun id place is => kept id place (news id place is)) known
      unfold applyInfos
      cases before : old.get info.id with
      | some place =>
          obtain ⟨state, is, named, told⟩ := olds info.id place before
          have retold : Of log server { state with info := info } := by
            refine ⟨described, fun message member => ?_⟩
            have said := told.messages message member
            rw [named] at said
            exact said
          have kept : Kept log server states
              (states.modify place fun chat => { chat with info := info }) := by
            refine kept_modify fun other found _ => ?_
            obtain rfl := Option.some.inj (is.symm.trans found)
            exact ⟨named.symm, retold⟩
          have known := kept _ _ ⟨state, is, named, told⟩
          exact (later kept known).cons kept known
      | none =>
          have kept := kept_append log server states [⟨info, [], false⟩]
          have known := knows_new described states
          exact (later kept known).cons kept known

theorem clean_applyChats {log : Log} {m : Model} (clean : Clean log m) {infos : List ChatInfo}
    (listed : ∀ info ∈ infos, Said log m.serverAddr (Msg.Describes info)) :
    Clean log (m.applyChats infos) := by
  obtain ⟨rows, index, _⟩ := applyInfos_reads infos listed m.chatStates ∅ clean.byID (by
    intro id place is
    rw [Table.get_empty] at is
    cases is)
  exact ⟨⟨index, rows, clean.named⟩, clean.viewport⟩

/-- A chat that is not known is a DM. -/
theorem held_ensureChat {log : Log} {m : Model} (held : Held log m) {id : String}
    (described : Said log m.serverAddr (Msg.Describes ⟨id, "dm", id, 0⟩)) :
    Held log (m.ensureChat id).2 ∧
      Knows log m.serverAddr (m.ensureChat id).2.chatStates id (m.ensureChat id).1 := by
  unfold Model.ensureChat
  split
  · next place is => exact ⟨held, held.byID id place is⟩
  · have kept := kept_append log m.serverAddr m.chatStates [⟨⟨id, "dm", id, 0⟩, [], false⟩]
    have known := knows_new described m.chatStates
    have grown := held.onStates kept
    refine ⟨⟨index_put grown.byID known, ?_, held.named⟩, known⟩
    refine List.forall_mem_append.mpr ⟨grown.chats, ?_⟩
    exact List.forall_mem_singleton.mpr ⟨id, known⟩

theorem ensureChat_shows (m : Model) (id : String) :
    (m.ensureChat id).2.serverAddr = m.serverAddr ∧ (m.ensureChat id).2.current = m.current ∧
      (m.ensureChat id).2.viewport = m.viewport := by
  unfold Model.ensureChat
  split <;> exact ⟨rfl, rfl, rfl⟩

/-- The chat's state is found or made, and then changed. -/
theorem held_change {log : Log} {m : Model} (held : Held log m) {id : String}
    (described : Said log m.serverAddr (Msg.Describes ⟨id, "dm", id, 0⟩))
    {change : ChatState → ChatState}
    (keeps : ∀ state, state.info.id = id → Of log m.serverAddr state →
      (change state).info.id = state.info.id ∧ Of log m.serverAddr (change state)) :
    Held log ((m.ensureChat id).2.onChat (m.ensureChat id).1 change) := by
  obtain ⟨ensured, state, is, named, told⟩ := held_ensureChat held described
  have addr := (ensureChat_shows m id).1
  refine ensured.onStates (kept_modify fun other found _ => ?_)
  obtain rfl := Option.some.inj (is.symm.trans found)
  rw [addr]
  exact keeps state named told

theorem clean_shown {log : Log} {m m' : Model} (clean : Clean log m) (held : Held log m')
    (addr : m'.serverAddr = m.serverAddr) (current : m'.current = m.current)
    (viewport : m'.viewport = m.viewport) : Clean log m' := by
  refine ⟨held, ?_⟩
  rw [viewport, addr, current]
  exact clean.viewport

theorem clean_onHistory {log : Log} {m : Model} (clean : Clean log m) {chat : String}
    {messages : List Message} (said : (m.serverAddr, Msg.history chat messages) ∈ log) :
    Clean log (m.onHistory chat messages) := by
  have changed : Held log ((m.ensureChat chat).2.onChat (m.ensureChat chat).1
      fun state => { state with messages := messages }) := by
    refine held_change clean.toHeld ⟨_, said, rfl, rfl, rfl, rfl⟩ fun state named told => ?_
    exact ⟨rfl, told.row, fun message member => ⟨_, said, rfl, named.symm, member⟩⟩
  obtain ⟨addr, current, viewport⟩ := ensureChat_shows m chat
  unfold Model.onHistory
  dsimp only
  split
  · exact clean_refresh changed
  · exact clean_shown clean changed addr current viewport

theorem clean_onMessage {log : Log} {m : Model} (clean : Clean log m) {chat : String}
    {message : Message} (said : (m.serverAddr, Msg.message chat message) ∈ log) :
    Clean log (m.onMessage chat message) := by
  have described : Said log m.serverAddr (Msg.Describes ⟨chat, "dm", chat, 0⟩) :=
    ⟨_, said, rfl, rfl, rfl, rfl⟩
  have later : ∀ state : ChatState, state.info.id = chat → Of log m.serverAddr state →
      ∀ info : ChatInfo, info.id = state.info.id → info.kind = state.info.kind →
        info.title = state.info.title →
        Of log m.serverAddr { state with messages := state.messages ++ [message], info :=
        info } := by
    intro state named told info id kind title
    refine ⟨?_, ?_⟩
    · obtain ⟨⟨origin, msg⟩, member, is, described⟩ := told.row
      refine ⟨(origin, msg), member, is, ?_⟩
      cases msg with
      | chats | history | message =>
          show Msg.Describes info _
          unfold Msg.Describes
          rw [id, kind, title]
          exact described
      | _ => cases described
    · show ∀ brought ∈ state.messages ++ [message], Said log m.serverAddr
        (Msg.Brings info.id brought)
      rw [id]
      refine List.forall_mem_append.mpr ⟨told.messages, List.forall_mem_singleton.mpr ?_⟩
      exact ⟨_, said, rfl, named.symm, rfl⟩
  have changed : Held log ((m.ensureChat chat).2.onChat (m.ensureChat chat).1 fun state =>
      { state with messages := state.messages ++ [message],
                   info := if message.ts > state.info.lastTs then
                     { state.info with lastTs := message.ts } else state.info }) := by
    refine held_change clean.toHeld described fun state named told => ?_
    by_cases newer : message.ts > state.info.lastTs
    · simp only [if_pos newer]
      exact ⟨trivial, later state named told _ rfl rfl rfl⟩
    · simp only [if_neg newer]
      exact ⟨trivial, later state named told _ rfl rfl rfl⟩
  obtain ⟨addr, current, viewport⟩ := ensureChat_shows m chat
  unfold Model.onMessage
  dsimp only
  split
  · exact clean_refresh changed
  · refine clean_shown clean (changed.onStates (kept_modify fun state _ told => ?_)) addr current
      viewport
    exact ⟨rfl, told.row, told.messages⟩

theorem clean_onOpenChat {log : Log} {m : Model} (clean : Clean log m) {chat : String}
    (said : (m.serverAddr, Msg.openChat chat) ∈ log) : Clean log (m.onOpenChat chat).1 := by
  have named : Said log m.serverAddr (Msg.Names chat) := ⟨_, said, rfl, rfl⟩
  have landed : ∀ m' : Model, m'.talk = m.talk → m'.serverAddr = m.serverAddr →
      Clean log (m'.openChat chat).1 := by
    intro m' talk addr
    refine clean_openChat (clean.congr talk addr).toHeld ?_
    rw [addr]
    exact named
  unfold Model.onOpenChat
  dsimp only
  refine landed _ ?_ ?_
  · repeat' split
    all_goals rfl
  · repeat' split
    all_goals rfl

theorem clean_activate {log : Log} {m : Model} (clean : Clean log m) (server : String) :
    Clean log (m.activate server) := by
  unfold Model.activate
  split
  · exact clean_blank log ⟨rfl, rfl, rfl, rfl⟩
  · exact clean

theorem clean_onRegistered {log : Log} {m : Model} (clean : Clean log m)
    (server username uuid : String) : Clean log (m.onRegistered server username uuid).1 :=
  clean_enterChat ((clean_activate clean server).congr rfl rfl)

theorem clean_onConnected {log : Log} {m : Model} (clean : Clean log m)
    (server username : String) : Clean log (m.onConnected server username).1 := by
  refine clean_enterChat ((clean_activate clean server).congr ?_ ?_)
  · exact (welcome_keeps _).2.1
  · exact congrArg Prod.fst (welcome_keeps _).1

/-- An address that may become the active one without the chats being reset. -/
def Model.Fits (m : Model) (addr : String) : Prop := addr = m.serverAddr ∨ m.Blank

theorem Model.Fits.clean {log : Log} {m m' : Model} {addr : String} (fits : m.Fits addr)
    (clean : Clean log m) (talk : m'.talk = m.talk) (is : m'.serverAddr = addr) : Clean log m' := by
  rcases fits with same | blank
  · exact clean.congr talk (is.trans same)
  · obtain ⟨_, talk⟩ := Prod.mk.inj talk
    obtain ⟨chats, talk⟩ := Prod.mk.inj talk
    obtain ⟨chatByID, talk⟩ := Prod.mk.inj talk
    obtain ⟨current, viewport⟩ := Prod.mk.inj talk
    refine clean_blank log ⟨chats.trans blank.chats, ?_, current.trans blank.current,
      viewport.trans blank.viewport⟩
    rw [chatByID]
    exact blank.chatByID

/-- The address is that of an active server of the list, if there is one. -/
theorem onServers_addr (m : Model) (servers : List ServerInfo) :
    (m.onServers servers).serverAddr = m.serverAddr ∨
      ∃ s ∈ servers, s.active = true ∧ (m.onServers servers).serverAddr = s.addr := by
  have follows : ∀ (servers : List ServerInfo) (m : Model),
      (servers.foldl Model.follow m).serverAddr = m.serverAddr ∨
        ∃ s ∈ servers, s.active = true ∧ (servers.foldl Model.follow m).serverAddr = s.addr := by
    intro servers
    induction servers with
    | nil => exact fun _ => .inl rfl
    | cons s rest ih =>
        intro m
        rw [List.foldl_cons]
        rcases ih (m.follow s) with same | ⟨other, member, active, is⟩
        · cases active : s.active with
          | true =>
              refine .inr ⟨s, List.mem_cons_self, active, same.trans ?_⟩
              unfold Model.follow
              rw [if_pos active]
              dsimp only
              split <;> rfl
          | false =>
              refine .inl (same.trans ?_)
              unfold Model.follow
              rw [active]
              rfl
        · exact .inr ⟨other, List.mem_cons_of_mem _ member, active, is⟩
  exact follows servers { m with servers := servers,
                                 serverSel := clampSel m.serverSel servers.length }

theorem clean_onServers {log : Log} {m : Model} (clean : Clean log m) {servers : List ServerInfo}
    (fit : ∀ s ∈ servers, s.active = true → m.Fits s.addr) : Clean log (m.onServers servers) := by
  have talk := (onServers_keeps m servers).1
  rcases onServers_addr m servers with same | ⟨s, member, active, is⟩
  · exact clean.congr talk same
  · exact (fit s member active).clean clean talk is

/-! ### What a message keeps -/

/-- Enter on the active server of the list makes its address the active one. -/
def Model.ShowFits (m : Model) : Prop := m.screen = .servers →
  ∀ s ∈ selected m.servers m.serverSel, (s.active && m.connected) = true → m.Fits s.addr

theorem Does.clean {log : Log} {m : Model} {key : Option String} {u : Updated}
    (does : Does m key u) (clean : Clean log m) (fits : key = some "enter" → m.ShowFits) :
    Clean log u.1 := by
  have still : ∀ {m' : Model}, m'.talk = m.talk → m'.link = m.link → Clean log m' :=
    fun talk link => clean.congr talk (congrArg Prod.fst link)
  cases does with
  | quiet quiet => exact still quiet.talk quiet.link
  | listed _ _ _ _ kept _ | accepted _ _ _ _ kept _ | text _ _ kept _ =>
      exact still kept.talk kept.link
  | shown enter screen row active is =>
      rw [is]
      exact clean_enterChat ((fits enter screen _ row active).clean clean rfl rfl)
  | back is =>
      rw [is]
      exact clean_enterChat clean
  | @row place state listed has link _ talk _ =>
      obtain ⟨id, known, found, named, told⟩ := clean.chats place listed
      obtain rfl := Option.some.inj (has.symm.trans found)
      have addr := congrArg Prod.fst (link.trans (openChat_keeps m state.info.id).1.symm)
      exact (clean_openChat clean.toHeld told.named).congr talk addr
  | left link _ talk _ =>
      have left : Clean log { m with current := "", viewport := [] } :=
        ⟨⟨clean.byID, clean.chats, fun isOpen => absurd rfl isOpen⟩, nofun⟩
      exact left.congr talk (congrArg Prod.fst link)

theorem Does.sends {m : Model} {key : Option String} {u : Updated} (does : Does m key u)
    {chat text : String} (sent : .send (.send chat text) ∈ u.2) :
    key = some "enter" ∧ m.Submits text ∧ chat = m.current := by
  have notTame : (Cmd.send (.send chat text)).tame = false := rfl
  cases does with
  | quiet quiet =>
      rw [quiet.tame _ sent] at notTame
      cases notTame
  | text enter submits _ cmds =>
      rw [cmds, List.mem_singleton] at sent
      cases sent
      exact ⟨enter, submits, rfl⟩
  | shown _ _ _ _ is | back is =>
      rw [is] at sent
      cases List.mem_singleton.mp sent
  | listed _ _ _ _ _ cmds | accepted _ _ _ _ _ cmds | row _ _ _ _ _ cmds | left _ _ _ cmds =>
      rw [cmds] at sent
      cases List.mem_singleton.mp sent

theorem Quiet.shows {m : Model} {u : Updated} (quiet : Quiet m u) :
    u.1.talk = m.talk ∧ u.1.serverAddr = m.serverAddr :=
  ⟨quiet.talk, congrArg Prod.fst quiet.link⟩

/-! ### Several servers at once -/

/-- The state, the server that is active in the core, and what the servers have told. -/
structure Links where
  model : Model
  active : Option String
  log : Log

/-- All that is shown is told of by the active server. -/
structure Shown (l : Links) : Prop where
  sidebar : ∀ place ∈ l.model.chats, ∃ state, l.model.chatStates[place]? = some state ∧
    Of l.log l.model.serverAddr state
  named : l.model.current ≠ "" → Said l.log l.model.serverAddr (Msg.Names l.model.current)
  conversation : ∀ message ∈ l.model.viewport,
    Said l.log l.model.serverAddr (Msg.Brings l.model.current message)

/-- The invariant. -/
def Links.Apart (l : Links) : Prop := Clean l.log l.model

theorem shown_of_apart {l : Links} (clean : l.Apart) : Shown l := by
  refine ⟨fun place listed => ?_, clean.named, clean.viewport⟩
  obtain ⟨_, state, is, _, told⟩ := clean.chats place listed
  exact ⟨state, is, told⟩

/-! ### What is announced -/

/-- What is announced is of the active server, and a wait is for what is announced. -/
structure Heard (m : Model) : Prop where
  ours : ∀ announced ∈ m.maintenance, m.ours announced.server
  awaited : m.waitingForServer = true → m.maintenance.isSome = true

/-- The address may become this one. -/
def Model.Moves (m : Model) (addr : String) : Prop := addr = m.serverAddr ∨ m.maintenance = none

/-- Enter on the active server of the list may show it. -/
def Model.ShowMoves (m : Model) : Prop := m.screen = .servers →
  ∀ s ∈ selected m.servers m.serverSel, (s.active && m.connected) = true → m.Moves s.addr

/-- An announcement and the wait for it stay, and so does the address, unless nothing is announced.
-/
theorem Heard.moves {m m' : Model} (heard : Heard m) (moves : m.Moves m'.serverAddr)
    (maintenance : m'.maintenance = m.maintenance)
    (waits : m'.waitingForServer = m.waitingForServer) : Heard m' := by
  refine ⟨fun announced held => ?_, fun waiting => ?_⟩
  · rw [maintenance] at held
    rcases moves with same | none
    · unfold Model.ours
      rw [same]
      exact heard.ours announced held
    · rw [none] at held
      cases held
  · rw [maintenance]
    exact heard.awaited (waits.symm.trans waiting)

theorem Heard.link {m m' : Model} (heard : Heard m) (link : m'.link = m.link) : Heard m' := by
  obtain ⟨addr, rest⟩ := Prod.mk.inj link
  obtain ⟨_, rest⟩ := Prod.mk.inj rest
  obtain ⟨maintenance, waits⟩ := Prod.mk.inj rest
  exact heard.moves (.inl addr) maintenance waits

theorem Heard.activate {m : Model} (heard : Heard m) {server : String}
    (moves : server = "" ∨ m.Moves server) : Heard (m.activate server) := by
  unfold Model.activate
  split
  · next other => exact heard.moves (moves.resolve_left other.1) rfl rfl
  · exact heard

theorem Does.heard {m : Model} {key : Option String} {u : Updated} (does : Does m key u)
    (heard : Heard m) (moves : key = some "enter" → m.ShowMoves) : Heard u.1 := by
  cases does with
  | quiet quiet => exact heard.link quiet.link
  | listed _ _ _ _ kept _ | accepted _ _ _ _ kept _ | text _ _ kept _ => exact heard.link kept.link
  | row _ _ link _ _ _ | left link _ _ _ => exact heard.link link
  | @shown s enter screen row active is =>
      rw [is]
      have shown : Heard { m with serverName := s.name, serverAddr := s.addr } :=
        heard.moves (moves enter screen s row active) rfl rfl
      exact shown.link (enterChat_keeps _).1
  | back is =>
      rw [is]
      exact heard.link (enterChat_keeps m).1

/-! ### What a message leaves alone -/

variable [Layout]

/-- A message about neither the chats nor the address. -/
def Msg.aside {Key : Type} : Msg Key → Bool
  | .attest _ | .verdictTick | .disconnected .. | .maintenance _ | .clockTick _
  | .reconnectTick => true
  | msg => msg.plain

theorem update_aside (m : Model) {msg : Msg Terminal.Key} (aside : msg.aside = true) :
    (m.update msg).1.talk = m.talk ∧ (m.update msg).1.serverAddr = m.serverAddr := by
  cases msg with
  | attest attest =>
      show (m.onAttest attest).1.talk = _ ∧ (m.onAttest attest).1.serverAddr = _
      unfold Model.onAttest
      dsimp only
      split_ifs <;> exact ⟨rfl, rfl⟩
  | verdictTick =>
      show m.onVerdictTick.1.talk = _ ∧ m.onVerdictTick.1.serverAddr = _
      unfold Model.onVerdictTick
      dsimp only
      split_ifs <;> exact ⟨rfl, rfl⟩
  | disconnected server reason =>
      refine ⟨(onDisconnected_keeps m server reason).1, ?_⟩
      show (m.onDisconnected server reason).1.serverAddr = _
      unfold Model.onDisconnected
      dsimp only
      split_ifs <;> rfl
  | maintenance announced => exact ⟨rfl, rfl⟩
  | clockTick now =>
      refine ⟨(onClockTick_keeps m now).1, ?_⟩
      show (m.onClockTick now).1.serverAddr = _
      unfold Model.onClockTick
      split
      · split <;> rfl
      · rfl
  | reconnectTick =>
      refine ⟨(onReconnectTick_keeps m).1, ?_⟩
      show m.onReconnectTick.1.serverAddr = _
      unfold Model.onReconnectTick
      split <;> rfl
  | ready | needUsername | fingerprint | theme | widgets | storePlugins | installedPlugins
  | pluginInstalled | pluginUpdate | pluginSubmitted | clientUpdate | selfUpdate | error | info
  | pong | coreClosed => exact (update_quiet m rfl).shows
  | _ => cases aside

/-- Only Enter in the input box sends a text. -/
theorem update_sends (m : Model) {msg : Msg Terminal.Key} {chat text : String}
    (sent : .send (.send chat text) ∈ (m.update msg).2) :
    ∃ key, msg = .key key ∧ Terminal.keyText key = "enter" ∧ m.Submits text ∧
      chat = m.current := by
  cases msg with
  | key key =>
      obtain ⟨enter, rest⟩ := (onKey_does m key).sends sent
      exact ⟨key, rfl, Option.some.inj enter, rest⟩
  | mouse mouse => cases ((handleMouse_does m mouse).sends sent).1
  | attest attest =>
      have sent : _ ∈ (m.onAttest attest).2 := sent
      unfold Model.onAttest at sent
      dsimp only at sent
      split_ifs at sent
      all_goals simp at sent
  | verdictTick =>
      have sent : _ ∈ m.onVerdictTick.2 := sent
      unfold Model.onVerdictTick at sent
      dsimp only at sent
      split_ifs at sent
      all_goals simp at sent
  | disconnected server reason =>
      have sent : _ ∈ (m.onDisconnected server reason).2 := sent
      unfold Model.onDisconnected at sent
      dsimp only at sent
      split_ifs at sent
      all_goals simp at sent
  | clockTick now =>
      have sent : _ ∈ (m.onClockTick now).2 := sent
      unfold Model.onClockTick at sent
      split at sent
      · split at sent
        all_goals simp at sent
      · simp at sent
  | reconnectTick =>
      have sent : _ ∈ m.onReconnectTick.2 := sent
      unfold Model.onReconnectTick at sent
      split at sent
      all_goals simp at sent
  | registered | connected => cases (List.mem_singleton (b := Cmd.send .listChats)).mp sent
  | openChat chat => cases (List.mem_singleton (b := Cmd.send (.history chat 200))).mp sent
  | windowSize | servers | chats | history | message | maintenance => cases sent
  | ready | needUsername | fingerprint | theme | widgets | storePlugins | installedPlugins
  | pluginInstalled | pluginUpdate | pluginSubmitted | clientUpdate | selfUpdate | error | info
  | pong | coreClosed => cases (update_quiet m rfl).tame _ sent

/-! ### Runs -/

/-- A message, with the server it is of, or another server becomes active in the core. -/
inductive Turn where
  | event (origin : String) (msg : Msg Terminal.Key)
  | switch (server : Option String)

/-- The server an event is of; a list of chats names it. -/
def source {Key : Type} (origin : String) : Msg Key → String
  | .chats server _ => server
  | _ => origin

def Links.step : Turn → Links → Links
  | .event origin msg, l => { l with model := (l.model.update msg).1,
                                     log := l.log ++ [(source origin msg, msg)] }
  | .switch server, l => { l with active := server }

def Links.start : Links := ⟨newModel, none, []⟩

/-- A text goes to the server that is shown, which the chat is of. -/
def Delivers (turn : Turn) (l : Links) : Prop :=
  match turn with
  | .event _ msg => ∀ chat text, .send (.send chat text) ∈ (l.model.update msg).2 →
      ∀ server ∈ l.active, server = l.model.serverAddr ∧ Said l.log server (Msg.Names chat)
  | .switch _ => True

/-- A notice or a disconnect of another server leaves the connection and the wait alone. -/
def Undisturbed (turn : Turn) (l : Links) : Prop :=
  match turn with
  | .event _ msg => match msg with
    | .maintenance announced => ¬ l.model.ours announced.server →
        (l.model.update msg).1.link = l.model.link
    | .disconnected server _ => ¬ l.model.ours server →
        (l.model.update msg).1.link = l.model.link
    | _ => True
  | .switch _ => True

/-- What does not name its server is of the active one, and so are a list of chats and a notice. The
address moves only when nothing is held, and a text is entered while the core has the same server.
-/
def InTurn (turn : Turn) (l : Links) : Prop :=
  match turn with
  | .event origin msg => match msg with
    | .chats .. | .history .. | .message .. | .openChat _ => source origin msg = l.model.serverAddr
    | .servers servers => ∀ s ∈ servers, s.active = true → l.model.Fits s.addr
    | .maintenance announced => l.model.ours announced.server
    | .key key => Terminal.keyText key = "enter" → l.model.ShowFits ∧
        (l.model.Submits (textOf l.model.input) →
          ∀ server ∈ l.active, server = l.model.serverAddr)
    | _ => True
  | .switch _ => True

instance Model.Blank.decidable (m : Model) : Decidable m.Blank :=
  decidable_of_iff
    (m.chats = [] ∧ m.chatByID.entries = [] ∧ m.current = "" ∧ m.viewport = [])
    ⟨fun ⟨chats, chatByID, current, viewport⟩ => ⟨chats, chatByID, current, viewport⟩,
      fun ⟨chats, chatByID, current, viewport⟩ => ⟨chats, chatByID, current, viewport⟩⟩

instance Model.Submits.decidable (m : Model) (line : String) : Decidable (m.Submits line) :=
  decidable_of_iff
    (m.screen = .chat ∧ m.focus = .input ∧ textOf m.input = line ∧ line ≠ "" ∧
      line.toList.head? ≠ some '/' ∧ m.current ≠ "")
    ⟨fun ⟨screen, focus, typed, notEmpty, noCommand, isOpen⟩ =>
        ⟨screen, focus, typed, notEmpty, noCommand, isOpen⟩,
      fun ⟨screen, focus, typed, notEmpty, noCommand, isOpen⟩ =>
        ⟨screen, focus, typed, notEmpty, noCommand, isOpen⟩⟩

instance Model.Fits.decidable (m : Model) (addr : String) : Decidable (m.Fits addr) :=
  inferInstanceAs (Decidable (_ ∨ _))

instance Model.ShowFits.decidable (m : Model) : Decidable m.ShowFits :=
  inferInstanceAs (Decidable (_ → _))

instance InTurn.decidable (turn : Turn) (l : Links) : Decidable (InTurn turn l) := by
  refine Turn.casesOn (motive := fun turn => Decidable (InTurn turn l)) turn (fun origin msg => ?_)
    fun server => inferInstanceAs (Decidable True)
  apply Msg.casesOn (motive := fun msg => Decidable (InTurn (.event origin msg) l)) msg <;> intros <;>
    unfold InTurn <;> infer_instance

/-- **A step keeps the servers apart.** -/
theorem apart_step {l : Links} (clean : l.Apart) {turn : Turn} (inTurn : InTurn turn l) :
    (l.step turn).Apart := by
  cases turn with
  | switch server => exact clean
  | event origin msg =>
      have told := Clean.mono clean [(source origin msg, msg)]
      have last : (source origin msg, msg) ∈ l.log ++ [(source origin msg, msg)] :=
        List.mem_append_right _ (List.mem_singleton_self _)
      show Clean (l.log ++ [(source origin msg, msg)]) (l.model.update msg).1
      generalize l.log ++ [(source origin msg, msg)] = log at told last
      have aside : msg.aside = true → Clean log (l.model.update msg).1 := by
        intro aside
        obtain ⟨talk, addr⟩ := update_aside l.model aside
        exact told.congr talk addr
      cases msg with
      | key key =>
          exact (onKey_does l.model key).clean told fun enter => (inTurn (Option.some.inj enter)).1
      | mouse mouse => exact (handleMouse_does l.model mouse).clean told nofun
      | windowSize width height => exact clean_layout (told.congr rfl rfl)
      | servers servers => exact clean_onServers told inTurn
      | registered server username uuid => exact clean_onRegistered told server username uuid
      | connected server username active => exact clean_onConnected told server username
      | chats server chats =>
          obtain rfl : server = l.model.serverAddr := inTurn
          refine clean_applyChats told fun info listed => ?_
          exact ⟨_, last, rfl, info, listed, rfl, rfl, rfl⟩
      | openChat chat =>
          obtain rfl : origin = l.model.serverAddr := inTurn
          exact clean_onOpenChat told last
      | history chat messages =>
          obtain rfl : origin = l.model.serverAddr := inTurn
          exact clean_onHistory told last
      | message chat message =>
          obtain rfl : origin = l.model.serverAddr := inTurn
          exact clean_onMessage told last
      | attest | verdictTick | disconnected | maintenance | clockTick | reconnectTick | ready
      | needUsername | fingerprint | theme | widgets | storePlugins | installedPlugins
      | pluginInstalled | pluginUpdate | pluginSubmitted | clientUpdate | selfUpdate | error | info
      | pong | coreClosed => exact aside rfl

theorem delivers_of_inTurn {l : Links} (clean : l.Apart) {turn : Turn}
    (inTurn : InTurn turn l) : Delivers turn l := by
  cases turn with
  | switch server => trivial
  | event origin msg =>
      intro chat text sent server active
      obtain ⟨key, rfl, enter, submits, rfl⟩ := update_sends l.model sent
      have typed : l.model.Submits (textOf l.model.input) := submits.typed ▸ submits
      have same := (inTurn enter).2 typed server active
      refine ⟨same, ?_⟩
      rw [same]
      exact Held.named clean.toHeld submits.open

theorem undisturbed_of_inTurn {l : Links} {turn : Turn} (inTurn : InTurn turn l) :
    Undisturbed turn l := by
  cases turn with
  | switch server => trivial
  | event origin msg =>
      cases msg with
      | maintenance announced => exact fun other => absurd inTurn other
      | disconnected server reason =>
          intro other
          show (l.model.onDisconnected server reason).1.link = _
          unfold Model.onDisconnected
          rw [if_neg other]
          rfl
      | _ => trivial

/-- Nobody moves the address while a restart is announced, but by a connection, which ends that. -/
def Unmoved (turn : Turn) (l : Links) : Prop :=
  match turn with
  | .event _ msg => match msg with
    | .servers servers => ∀ s ∈ servers, s.active = true → l.model.Moves s.addr
    | .registered server .. => server = "" ∨ l.model.Moves server
    | .key key => Terminal.keyText key = "enter" → l.model.ShowMoves
    | _ => True
  | .switch _ => True

instance Model.Moves.decidable (m : Model) (addr : String) : Decidable (m.Moves addr) :=
  inferInstanceAs (Decidable (_ ∨ _))

instance Model.ShowMoves.decidable (m : Model) : Decidable m.ShowMoves :=
  inferInstanceAs (Decidable (_ → _))

instance Unmoved.decidable (turn : Turn) (l : Links) : Decidable (Unmoved turn l) := by
  refine Turn.casesOn (motive := fun turn => Decidable (Unmoved turn l)) turn
    (fun origin msg => ?_) fun server => inferInstanceAs (Decidable True)
  apply Msg.casesOn (motive := fun msg => Decidable (Unmoved (.event origin msg) l)) msg <;>
    intros <;> unfold Unmoved <;> infer_instance

/-- **A step hears the active server only.** -/
theorem heard_step {l : Links} (heard : Heard l.model) {turn : Turn} (inTurn : InTurn turn l)
    (unmoved : Unmoved turn l) : Heard (l.step turn).model := by
  cases turn with
  | switch server => exact heard
  | event origin msg =>
      show Heard (l.model.update msg).1
      cases msg with
      | key key =>
          exact (onKey_does l.model key).heard heard fun enter => unmoved (Option.some.inj enter)
      | mouse mouse => exact (handleMouse_does l.model mouse).heard heard nofun
      | windowSize width height =>
          have sized : Heard { l.model with width := width, height := height } := heard.link rfl
          exact sized.link (layout_keeps _).1
      | servers servers =>
          have rest := (onServers_keeps l.model servers).2.2
          obtain ⟨_, rest⟩ := Prod.mk.inj rest
          obtain ⟨maintenance, waits⟩ := Prod.mk.inj rest
          refine heard.moves ?_ maintenance waits
          rcases onServers_addr l.model servers with same | ⟨s, member, active, is⟩
          · exact .inl same
          · show l.model.Moves (l.model.onServers servers).serverAddr
            rw [is]
            exact unmoved s member active
      | registered server username uuid =>
          have moved : Heard (l.model.activate server) := heard.activate unmoved
          have greeted : Heard ({ l.model.activate server with
              username := username, uuid := uuid, connected := true, checking := false }.flash
              ("registered as " ++ username ++ " on " ++ (l.model.activate server).serverAddr)
              false) := moved.moves (.inl rfl) rfl rfl
          exact greeted.link (enterChat_keeps _).1
      | connected server username active =>
          have welcomed := (enterChat_keeps _).1.trans (welcome_keeps { l.model.activate server with
            username := if username ≠ "" then username else (l.model.activate server).username
            connected := true
            checking := false }).1
          obtain ⟨_, rest⟩ := Prod.mk.inj welcomed
          obtain ⟨_, rest⟩ := Prod.mk.inj rest
          obtain ⟨maintenance, waits⟩ := Prod.mk.inj rest
          exact ⟨fun announced held => absurd (maintenance.symm.trans held) nofun,
            fun waiting => absurd (waits.symm.trans waiting) nofun⟩
      | chats server chats => exact heard.link rfl
      | openChat chat => exact heard.link (onOpenChat_keeps l.model chat).1
      | history chat messages => exact heard.link (onHistory_keeps l.model chat messages).1
      | message chat message => exact heard.link (onMessage_keeps l.model chat message).1
      | attest attest =>
          refine heard.link ?_
          show (l.model.onAttest attest).1.link = _
          unfold Model.onAttest
          dsimp only
          split_ifs <;> rfl
      | verdictTick =>
          refine heard.link ?_
          show l.model.onVerdictTick.1.link = _
          unfold Model.onVerdictTick
          dsimp only
          split_ifs <;> rfl
      | disconnected server reason =>
          show Heard (l.model.onDisconnected server reason).1
          unfold Model.onDisconnected
          dsimp only
          split_ifs with ours announced
          · exact ⟨heard.ours, fun _ => announced⟩
          · exact ⟨heard.ours, heard.awaited⟩
          · exact ⟨heard.ours, heard.awaited⟩
          · exact ⟨heard.ours, heard.awaited⟩
      | maintenance announced => exact ⟨fun held is => Option.some.inj is ▸ inTurn, fun _ => rfl⟩
      | clockTick now =>
          show Heard (l.model.onClockTick now).1
          unfold Model.onClockTick
          split
          · next announced held =>
            split
            · exact ⟨heard.ours, fun _ => by rw [held]; rfl⟩
            · exact heard
          · exact heard
      | reconnectTick =>
          show Heard l.model.onReconnectTick.1
          unfold Model.onReconnectTick
          split <;> exact heard
      | ready | needUsername | fingerprint | theme | widgets | storePlugins | installedPlugins
      | pluginInstalled | pluginUpdate | pluginSubmitted | clientUpdate | selfUpdate | error | info
      | pong | coreClosed => exact heard.link (update_quiet l.model rfl).link

/-- **The servers do not mix**, in any sequence in which all is in turn. And if nobody moves the
address while a restart is announced, what is announced, and waited for, is always of the active
server. -/
theorem servers_apart (turns : List Turn) (inTurn : Steps.Each Links.step InTurn turns .start) :
    Steps.Each Links.step (fun turn l => Shown l ∧ Delivers turn l ∧ Undisturbed turn l ∧
      Shown (l.step turn)) turns .start ∧
    (Steps.Each Links.step Unmoved turns .start →
      Steps.Each Links.step (fun turn l => Heard l.model ∧ Heard (l.step turn).model) turns
        .start) := by
  have begun : Links.start.Apart := clean_blank [] ⟨rfl, rfl, rfl, rfl⟩
  have step : ∀ turn l, Links.Apart l → InTurn turn l → Links.Apart (l.step turn) :=
    fun _ _ clean meets => apart_step clean meets
  constructor
  · refine (inTurn.keeps step begun).mono fun turn l ⟨before, meets, after⟩ => ?_
    exact ⟨shown_of_apart before, delivers_of_inTurn before meets, undisturbed_of_inTurn meets,
      shown_of_apart after⟩
  · intro unmoved
    have silent : Heard Links.start.model := ⟨fun _ => nofun, nofun⟩
    have keeps : ∀ turn (l : Links), Heard l.model → InTurn turn l ∧ Unmoved turn l →
        Heard (l.step turn).model := fun _ _ heard meets => heard_step heard meets.1 meets.2
    refine ((inTurn.and unmoved).keeps keeps silent).mono fun turn l kept => ?_
    exact ⟨kept.1, kept.2.2⟩

end

namespace Ideal

attribute [local instance] terminal layout

/-- A message of bob. -/
def hello : Message := ⟨"bob", "hi", 1, false, "", false⟩

/-- A text is typed to bob at one server, which then restarts; then another is joined, where there is
a bob too. -/
def oneByOne : List Turn :=
  [.switch (some "a:1"), .event "" (.connected "a:1" "alice" true),
    .event "" (.chats "a:1" [⟨"bob", "dm", "bob", 1⟩]), .event "a:1" (.message "bob" hello),
    .event "a:1" (.openChat "bob"), .event "" (.key "o"), .event "" (.key "k"),
    .event "" (.key "enter"), .event "" (.maintenance ⟨"a:1", "updating", 3000, ""⟩),
    .event "" (.disconnected "b:1" "closed"), .event "" (.clockTick 4000),
    .event "" (.disconnected "a:1" "closed"), .event "" (.connected "a:1" "alice" true),
    .switch (some "b:1"), .event "" (.connected "b:1" "alice" true),
    .event "" (.servers [listed "a:1" "green" false, listed "b:1" "green" true]),
    .event "b:1" (.message "bob" hello)]

theorem oneByOne_apart : Steps.Each Links.step (fun turn l => Shown l ∧ Delivers turn l ∧
    Undisturbed turn l ∧ Shown (l.step turn)) oneByOne .start ∧
    Steps.Each Links.step (fun turn l => Heard l.model ∧ Heard (l.step turn).model) oneByOne
      .start := by
  obtain ⟨apart, heard⟩ := servers_apart oneByOne (by decide +kernel)
  exact ⟨apart, heard (by decide +kernel)⟩

/-- A message of another server. -/
def mixed : List Turn :=
  [.event "" (.connected "a:1" "alice" true), .event "b:1" (.message "bob" hello)]

/-- A text for the open chat, as the core has already made another server active. -/
def misdelivered : List Turn :=
  [.switch (some "a:1"), .event "" (.connected "a:1" "alice" true),
    .event "a:1" (.openChat "bob"), .event "" (.key "o"), .switch (some "b:1"),
    .event "" (.key "enter")]

/-- A notice of another server. -/
def disturbed : List Turn :=
  [.event "" (.connected "a:1" "alice" true),
    .event "" (.maintenance ⟨"b:1", "updating", 3000, ""⟩)]

/-- A notice, and the address moves before the restart. -/
def inherited : List Turn :=
  [.event "" (.connected "a:1" "alice" true),
    .event "" (.maintenance ⟨"a:1", "updating", 3000, ""⟩),
    .event "" (.registered "b:1" "alice" "uuid"), .event "" (.clockTick 4000)]

-- The second server is waited for, because of what the first one has announced.
example : (Steps.run Links.step inherited .start).model.waitingForServer = true ∧
    (Steps.run Links.step inherited .start).model.serverAddr = "b:1" := by
  decide +kernel

/-- **Servers mix**: in what is shown, in what is sent, and in the wait. -/
theorem servers_mix :
    ¬ Steps.Each Links.step (fun turn l => Shown (l.step turn)) mixed .start ∧
      ¬ Steps.Each Links.step Delivers misdelivered .start ∧
      ¬ Steps.Each Links.step Undisturbed disturbed .start ∧
      ¬ Steps.Each Links.step (fun turn l => Heard (l.step turn).model) inherited .start := by
  refine ⟨?_, ?_, ?_, ?_⟩
  · rintro ⟨_, shown, _⟩
    obtain ⟨state, _, told⟩ := shown.sidebar 0 (by decide +kernel)
    obtain ⟨entry, member, origin, _⟩ := told.row
    have others : ∀ server ∈ (Steps.run Links.step mixed .start).log.map Prod.fst,
        server ≠ (Steps.run Links.step mixed .start).model.serverAddr := by decide +kernel
    exact others entry.1 (List.mem_map_of_mem member) origin
  · rintro ⟨_, _, _, _, _, delivers, _⟩
    obtain ⟨same, _⟩ := delivers "bob" "o" (by decide +kernel) "b:1" (by decide +kernel)
    exact absurd same (by decide +kernel)
  · rintro ⟨_, undisturbed, _⟩
    have same := congrArg (fun link => link.2.2.1.isSome) (undisturbed (by decide +kernel))
    exact absurd same (by decide +kernel)
  · rintro ⟨_, _, heard, _⟩
    have ours := heard.ours ⟨"a:1", "updating", 3000, ""⟩ (by decide +kernel)
    exact absurd ours (by decide +kernel)

end Ideal

end ChermTui
