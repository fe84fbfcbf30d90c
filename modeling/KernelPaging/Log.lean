import KernelPaging.Halt

/-!
The log of the kernel: at most one sink and one clock, both the first ever registered, and a level
that may change at any time. A record below the level, or one written before there is a sink, is
dropped; every other is stamped, printed and delivered to the sink, as a line of this form:

    [t=12.340s] [WARN ] [clock] message

Only debug lines end with the place in the code that wrote them.
-/

set_option autoImplicit false

namespace KernelPaging

/-- From the most verbose to the gravest. -/
inductive Level
  | debug
  | info
  | warn
  | error
  | panic
deriving DecidableEq

def Level.rank : Level → Nat
  | .debug => 0
  | .info => 1
  | .warn => 2
  | .error => 3
  | .panic => 4

def Level.tag : Level → String
  | .debug => "DEBUG"
  | .info => "INFO "
  | .warn => "WARN "
  | .error => "ERROR"
  | .panic => "PANIC"

def Level.name : Level → String
  | .debug => "Debug"
  | .info => "Info"
  | .warn => "Warn"
  | .error => "Error"
  | .panic => "Panic"

def Level.all : List Level :=
  [.debug, .info, .warn, .error, .panic]

def Level.ofName? (name : String) : Option Level :=
  Level.all.find? fun level => level.name == name

structure CodeLocation where
  file : String
  line : Nat

structure Record where
  level : Level
  origin : String
  text : String
  location : Option CodeLocation := none

def threeDigits (value : Nat) : String :=
  String.ofList [Nat.digitChar (value / 100 % 10), Nat.digitChar (value / 10 % 10),
    Nat.digitChar (value % 10)]

def timestamp (milliseconds : Nat) : String :=
  toString (milliseconds / 1000) ++ "." ++ threeDigits (milliseconds % 1000)

def Record.suffix (record : Record) : String :=
  match record.level, record.location with
  | .debug, some location => " (" ++ location.file ++ ":" ++ toString location.line ++ ")"
  | _, _ => ""

def Record.line (record : Record) (milliseconds : Nat) : String :=
  "[t=" ++ timestamp milliseconds ++ "s] [" ++ record.level.tag ++ "] [" ++ record.origin ++ "] "
    ++ record.text ++ record.suffix

structure Delivery where
  sink : String
  level : Level
  line : String

structure Logger where
  sink : Option String := none
  clock : Option Nat := none
  level : Level := .debug
  ticks : Nat → UInt64 := fun _ => 0
  delivered : Array Delivery := #[]

def millisecondsPerTick : Nat := 10

/-- Registers a sink unless there is one already, and sets the level in any case. -/
def Logger.register (logger : Logger) (sink : String) (level : Level) : Logger :=
  { logger with sink := logger.sink <|> some sink, level }

def Logger.registerClock (logger : Logger) (clock : Nat) : Logger :=
  { logger with clock := logger.clock <|> some clock }

def Logger.setLevel (logger : Logger) (level : Level) : Logger :=
  { logger with level }

def Logger.setTicks (logger : Logger) (clock : Nat) (value : UInt64) : Logger :=
  { logger with ticks := fun other => if other = clock then value else logger.ticks other }

/-- Time since boot, which stands still at zero without a clock. It has to fit a word. -/
def Logger.milliseconds (logger : Logger) : Except Halt Nat :=
  match logger.clock with
  | none => .ok 0
  | some clock =>
      let elapsed := (logger.ticks clock).toNat * millisecondsPerTick
      if elapsed < 0x10000000000000000 then .ok elapsed else .error .multiplicationOverflow

/-- The time is only asked for when the record is really delivered. -/
def Logger.write (logger : Logger) (record : Record) : Except Halt Logger :=
  if record.level.rank < logger.level.rank then
    .ok logger
  else
    match logger.sink with
    | none => .ok logger
    | some sink =>
        match logger.milliseconds with
        | .error halt => .error halt
        | .ok milliseconds =>
            .ok { logger with
              delivered := logger.delivered.push ⟨sink, record.level, record.line milliseconds⟩ }

def Logger.drain (logger : Logger) : Array Delivery × Logger :=
  (logger.delivered, { logger with delivered := #[] })

end KernelPaging
