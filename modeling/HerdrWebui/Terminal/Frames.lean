import HerdrWebui.Data.Tail

/-!
The messages of a terminal connection in both directions, as far as the terminal
paths write or read them. The variants that are decoded and skipped are one case.
-/

namespace HerdrWebui

structure TerminalFrame where
  seq : Nat
  width : Nat
  height : Nat
  full : Bool
  bytes : Bytes
  deriving DecidableEq

inductive ServerMessage where
  | terminal (frame : TerminalFrame)
  | graphics (bytes : Bytes)
  | serverShutdown (reason : Option String)
  | other
  deriving DecidableEq

inductive ClientMessage where
  | attachTerminal (terminalId : String)
  | input (data : Bytes)
  | resize (cols rows : Nat)
  | detach
  | other
  deriving DecidableEq

end HerdrWebui
