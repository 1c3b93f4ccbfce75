import ParticleScene.Layer
import ParticleScene.Number.Notation
import ParticleScene.Script.Options

/-!
# Script lines

The lines that scripts are made of. A line knows what it says; its text is made at the end.
-/

namespace ParticleScene

/-- The form of a command. -/
inductive CommandKind where
  | particles
  | cloud (duration : UInt32)
  deriving Repr, DecidableEq

/-- How long the clouds of animated layers last. -/
def cloudDuration : UInt32 := 100

/-- How long the clouds of persistent layers last. -/
def persistentDuration : UInt32 := 200

def CommandKind.ofEffect : EffectKind → CommandKind
  | .particles => .particles
  | .clouds => .cloud cloudDuration

/-- What the commands of one layer share. -/
structure Effect where
  kind : CommandKind
  particle : String
  alpha : Float
  repeatCount : UInt32
  repeatInterval : UInt32
  targeter : String

def Effect.ofLayer (l : Layer) (kind : CommandKind) : Effect where
  kind := kind
  particle := l.particle
  alpha := l.alpha
  repeatCount := l.repeatCount
  repeatInterval := l.repeatInterval
  targeter := l.targeter.text

/-- A command: an effect in a color at a place. -/
structure Command where
  effect : Effect
  color : String
  x : Float
  z : Float
  y : Float

namespace Command

/-- The anchor and the offsets from it. -/
def anchor (c : Command) : String :=
  "@" ++ c.effect.targeter ++ "\x7bxoffset=" ++ Number.fixed 4 c.x ++ ";zoffset=" ++
    Number.fixed 4 c.z ++ ";yoffset=" ++ Number.fixed 4 c.y ++ "\x7d"

/-- The text of a particle command up to the digits of its repeat field. -/
def beforeRepeat (c : Command) : String :=
  "  - effect:particles\x7bp=" ++ c.effect.particle ++ ";c=" ++ c.color ++ ";a=" ++
    Number.plain c.effect.alpha ++ ";size=1;repeat="

/-- The text of a particle command behind the digits of its repeat field. -/
def afterRepeat (c : Command) : String :=
  ";repeatInterval=" ++ toString c.effect.repeatInterval.toNat ++ "\x7d " ++ c.anchor

def text (c : Command) : String :=
  match c.effect.kind with
  | .particles => c.beforeRepeat ++ toString c.effect.repeatCount.toNat ++ c.afterRepeat
  | .cloud duration =>
    "  - summonareaeffectcloud\x7bparticle=" ++ c.effect.particle ++ ";d=" ++
      toString duration.toNat ++ ";r=1;color=" ++ c.color ++ "\x7d " ++ c.anchor

end Command

/-- The length of a delay: that of a frame, or a number of ticks. -/
inductive Pause where
  | frame (delay : Float)
  | ticks (count : Int)

/-- The length as a delay line shows it; that of a frame with two decimal places. -/
def Pause.text : Pause → String
  | frame delay => Number.fixed 2 delay
  | ticks count => toString count

/-- A line of a script. -/
inductive Line where
  /-- The name of the skill. -/
  | title (skill : String)
  /-- The heading above all layers. -/
  | heading
  /-- The name of a layer. -/
  | comment (name : String)
  | pause (length : Pause)
  | command (command : Command)

namespace Line

def text : Line → String
  | title skill => skill ++ ":"
  | heading => "  Skills:"
  | comment name => "  # " ++ name
  | pause length => "  - delay " ++ length.text
  | command c => c.text

/-- The first two lines of a script. -/
def header (skill : String) : List Line :=
  [title skill, heading]

end Line

end ParticleScene
