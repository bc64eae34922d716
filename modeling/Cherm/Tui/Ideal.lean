/-
**A terminal to compute with.**

A key is its text, and a text input is its value: a key of one character is appended. The header is
one row.
-/

import Cherm.Tui.Update

namespace ChermTui.Ideal

abbrev terminal : Terminal where
  Key := String
  keyText key := key
  TextInput := String
  newInput _ _ := ""
  value input := input
  setValue value _ := value
  focus input := input
  blur input := input
  edit key input := if key.length = 1 then input ++ key else input
  openBrowser _ := none
  envServer := ""
  envDocs := ""

attribute [local instance] terminal

abbrev layout : Layout where
  chatTop _ := 1

/-- A server of the list. -/
def listed (addr verdict : String) (active : Bool) : ServerInfo :=
  ⟨addr, addr, "", "unsigned", verdict, "alice", active⟩

/-- The attestation of a server. -/
def attests (server verdict : String) : Attest := { noAttest with server, verdict }

end ChermTui.Ideal
