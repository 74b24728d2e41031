import Firmware.Program.Basic

/-! # PWM channels

The language names only pins, and the hardware wants a channel for each of them.
Every pin takes the next free channel when it is first configured for PWM. Later
configurations of the same pin keep the channel and the settings of the first. -/

namespace Firmware

/-- The channel of a pin, with its settings. -/
structure PwmChannel where
  number : Nat
  frequency : Int
  resolution : Int
  deriving DecidableEq, Repr

/-- The pins that have a channel, in the order of the channels. -/
structure PwmChannels where
  bindings : List (String × PwmChannel) := []
  deriving DecidableEq, Repr

namespace PwmChannels

def get? (channels : PwmChannels) (pin : String) : Option PwmChannel :=
  channels.bindings.lookup pin

/-- Binds what a command configures for PWM, unless its pin has a channel. -/
def bind (channels : PwmChannels) : Command → PwmChannels
  | .configurePwm pin frequency resolution =>
      match channels.get? pin with
      | some _ => channels
      | none =>
          { bindings := channels.bindings ++
              [(pin, { number := channels.bindings.length, frequency, resolution })] }
  | _ => channels

def allocate (commands : List Command) : PwmChannels :=
  commands.foldl bind {}

end PwmChannels

end Firmware
