import Ftpii.Platform
set_option autoImplicit false

/-! reset.c and pad.c: the reset flag and the two controllers. -/

namespace Ftpii
open StateProgram

def WPAD_BUTTON_1 : Nat := 0x0002
def WPAD_BUTTON_B : Nat := 0x0004
def WPAD_BUTTON_A : Nat := 0x0008
def WPAD_BUTTON_LEFT : Nat := 0x0100
def WPAD_BUTTON_RIGHT : Nat := 0x0200
def WPAD_BUTTON_DOWN : Nat := 0x0400
def WPAD_BUTTON_UP : Nat := 0x0800

def PAD_BUTTON_LEFT : Nat := 0x0001
def PAD_BUTTON_RIGHT : Nat := 0x0002
def PAD_BUTTON_DOWN : Nat := 0x0004
def PAD_BUTTON_UP : Nat := 0x0008
def PAD_BUTTON_A : Nat := 0x0100
def PAD_BUTTON_B : Nat := 0x0200
def PAD_BUTTON_X : Nat := 0x0400

def setResetFlag : Os Unit := Prog.modify fun w => { w with resetFlag := true }

/-- The buttons pressed, if one of the mask is among them. -/
def checkButtons (mask : Nat) : Os Nat := do
  let pressed ← popDevice
  pure (if pressed.toNat &&& mask ≠ 0 then pressed.toNat else 0)

def checkWiimote (mask : Nat) : Os Nat := checkButtons mask

def checkGamecube (mask : Nat) : Os Nat := checkButtons mask

def checkResetSynchronous : Os Bool := do
  let w ← Prog.get
  if w.resetFlag then pure true
  else do
    let wiimote ← checkWiimote WPAD_BUTTON_A
    if wiimote ≠ 0 then pure true
    else do
      let gamecube ← checkGamecube PAD_BUTTON_A
      pure (gamecube ≠ 0)

end Ftpii
