import Mathlib.Data.List.Basic
import KernelPaging.Log

/-!
Reading a log back. A line begins with the time, the level and the origin, each between brackets,
and an origin holds no closing bracket. So these fields can be told from a line however many
brackets its message holds. Over a run of the logger, the lines that reach the sink are those of
the records at or above the level in force, in their order, and every one of them reads back.
-/

set_option autoImplicit false

namespace KernelPaging

/-- What is told from a line alone. The place in the code is a part of the body. -/
structure Reading where
  level : Level
  milliseconds : Nat
  origin : String
  body : String
deriving DecidableEq

def readTime (text : List Char) : Option (Nat × List Char) := do
  let digits ← text.dropPrefix? ['[', 't', '=']
  let decimals ← (digits.dropWhile Char.isDigit).dropPrefix? ['.']
  let rest ← (decimals.drop 3).dropPrefix? ['s', ']', ' ']
  let seconds := Nat.ofDigitChars 10 (digits.takeWhile Char.isDigit) 0
  return (seconds * 1000 + Nat.ofDigitChars 10 (decimals.take 3) 0, rest)

def readLevel (text : List Char) : Option (Level × List Char) := do
  let tagged ← text.dropPrefix? ['[']
  let level ← Level.all.find? fun level => level.tag.toList == tagged.take 5
  let rest ← (tagged.drop 5).dropPrefix? [']', ' ']
  return (level, rest)

def readOrigin (text : List Char) : Option (String × List Char) := do
  let named ← text.dropPrefix? ['[']
  let rest ← (named.dropWhile (· != ']')).dropPrefix? [']', ' ']
  return (String.ofList (named.takeWhile (· != ']')), rest)

def Reading.ofLine? (line : String) : Option Reading := do
  let (milliseconds, text) ← readTime line.toList
  let (level, text) ← readLevel text
  let (origin, text) ← readOrigin text
  return ⟨level, milliseconds, origin, String.ofList text⟩

def Record.reading (record : Record) (milliseconds : Nat) : Reading where
  level := record.level
  milliseconds := milliseconds
  origin := record.origin
  body := if record.level = .debug then record.text ++ record.suffix else record.text

inductive LogCall
  | register (sink : String) (level : Level)
  | setLevel (level : Level)
  | registerClock (clock : Nat)
  | setTicks (clock : Nat) (value : UInt64)
  | write (record : Record)

def Logger.perform (logger : Logger) : LogCall → Except Halt Logger
  | .register sink level => .ok (logger.register sink level)
  | .setLevel level => .ok (logger.setLevel level)
  | .registerClock clock => .ok (logger.registerClock clock)
  | .setTicks clock value => .ok (logger.setTicks clock value)
  | .write record => logger.write record

def Logger.performAll (logger : Logger) : List LogCall → Except Halt Logger
  | [] => .ok logger
  | call :: calls => do
      let after ← logger.perform call
      after.performAll calls

def LogCall.sink? : LogCall → Option String
  | .register sink _ => some sink
  | _ => none

def LogCall.clock? : LogCall → Option Nat
  | .registerClock clock => some clock
  | _ => none

def LogCall.level? : LogCall → Option Level
  | .register _ level => some level
  | .setLevel level => some level
  | _ => none

def LogCall.ticks? (clock : Nat) : LogCall → Option UInt64
  | .setTicks other value => if other = clock then some value else none
  | _ => none

def firstSink (calls : List LogCall) : Option String :=
  (calls.filterMap LogCall.sink?).head?

def firstClock (calls : List LogCall) : Option Nat :=
  (calls.filterMap LogCall.clock?).head?

def lastLevel (calls : List LogCall) : Level :=
  (calls.filterMap LogCall.level?).getLast?.getD .debug

def lastTicks (initial : Nat → UInt64) (calls : List LogCall) (clock : Nat) : UInt64 :=
  (calls.filterMap (LogCall.ticks? clock)).getLast?.getD (initial clock)

def elapsedAfter (initial : Nat → UInt64) (calls : List LogCall) : Nat :=
  match firstClock calls with
  | none => 0
  | some clock => 10 * (lastTicks initial calls clock).toNat

def TicksFit (ticks : UInt64) : Prop :=
  ticks.toNat * 10 < 0x10000000000000000

instance (ticks : UInt64) : Decidable (TicksFit ticks) :=
  inferInstanceAs (Decidable (_ < _))

/-- A record on its way to a sink, with the time at which it was written. -/
structure LogEntry where
  sink : String
  record : Record
  milliseconds : Nat

def LogEntry.delivery (entry : LogEntry) : Delivery :=
  ⟨entry.sink, entry.record.level, entry.record.line entry.milliseconds⟩

/-- A record is logged when a sink was registered before it and it is at or above the level that
was set last before it. -/
def logged? (initial : Nat → UInt64) (earlier : List LogCall) : LogCall → Option LogEntry
  | .write record =>
      if (lastLevel earlier).rank ≤ record.level.rank then
        (firstSink earlier).map fun sink => ⟨sink, record, elapsedAfter initial earlier⟩
      else
        none
  | _ => none

def entriesAfter (initial : Nat → UInt64) (earlier : List LogCall) : List LogCall → List LogEntry
  | [] => []
  | call :: calls =>
      (logged? initial earlier call).toList ++ entriesAfter initial (earlier ++ [call]) calls

theorem dropPrefix?_append (mark rest : List Char) :
    (mark ++ rest).dropPrefix? mark = some rest := by
  apply List.dropPrefix?_eq_some_iff.mpr
  exact ⟨mark, rfl, BEq.rfl⟩

theorem threeDigits_toList (value : Nat) : (threeDigits value).toList =
    [Nat.digitChar (value / 100 % 10), Nat.digitChar (value / 10 % 10),
      Nat.digitChar (value % 10)] :=
  String.toList_ofList

theorem ofDigitChars_threeDigits {value : Nat} (small : value < 1000) :
    Nat.ofDigitChars 10 (threeDigits value).toList 0 = value := by
  have digit : ∀ place < 10, (Nat.digitChar place).toNat - '0'.toNat = place := by decide
  rw [threeDigits_toList]
  simp only [Nat.ofDigitChars_cons, Nat.ofDigitChars_nil]
  rw [digit _ (Nat.mod_lt _ (by omega)), digit _ (Nat.mod_lt _ (by omega)),
    digit _ (Nat.mod_lt _ (by omega))]
  omega

theorem timestamp_toList (milliseconds : Nat) : (timestamp milliseconds).toList =
    Nat.toDigits 10 (milliseconds / 1000) ++
      '.' :: (threeDigits (milliseconds % 1000)).toList := by
  have seconds : (toString (milliseconds / 1000)).toList =
      Nat.toDigits 10 (milliseconds / 1000) := Nat.toList_repr
  rw [timestamp, String.toList_append, String.toList_append, seconds]
  simp

theorem readTime_timestamp (milliseconds : Nat) (rest : List Char) :
    readTime (['[', 't', '='] ++ ((timestamp milliseconds).toList ++ (['s', ']', ' '] ++ rest))) =
      some (milliseconds, rest) := by
  have digits : ∀ letter ∈ Nat.toDigits 10 (milliseconds / 1000), letter.isDigit = true := by
    intro letter inside
    exact Nat.isDigit_of_mem_toDigits (by decide) (by decide) inside
  have point : ¬ '.'.isDigit = true := by decide
  have three : (threeDigits (milliseconds % 1000)).toList.length = 3 := by
    rw [threeDigits_toList]
    rfl
  have seconds : Nat.ofDigitChars 10 (Nat.toDigits 10 (milliseconds / 1000)) 0 =
      milliseconds / 1000 :=
    Nat.ofDigitChars_toDigits (by decide) (by decide)
  have decimals : Nat.ofDigitChars 10 (threeDigits (milliseconds % 1000)).toList 0 =
      milliseconds % 1000 :=
    ofDigitChars_threeDigits (Nat.mod_lt _ (by decide))
  unfold readTime
  rw [dropPrefix?_append, timestamp_toList, List.append_assoc, List.cons_append]
  simp only [Option.bind_eq_bind, Option.bind_some]
  rw [List.dropWhile_append_of_pos digits, List.dropWhile_cons_of_neg point,
    List.takeWhile_append_of_pos digits, List.takeWhile_cons_of_neg point, List.append_nil, seconds,
    ← List.singleton_append, dropPrefix?_append]
  simp only [Option.bind_some]
  rw [List.drop_left' three, List.take_left' three, dropPrefix?_append, decimals]
  simp only [Option.bind_some, Option.pure_def]
  congr 2
  omega

theorem Level.find?_tag (level : Level) :
    (Level.all.find? fun other => other.tag.toList == level.tag.toList) = some level := by
  cases level <;> decide

theorem Level.tag_length (level : Level) : level.tag.toList.length = 5 := by
  cases level <;> decide

theorem readLevel_tag (level : Level) (rest : List Char) :
    readLevel (['['] ++ (level.tag.toList ++ ([']', ' '] ++ rest))) = some (level, rest) := by
  unfold readLevel
  rw [dropPrefix?_append]
  simp only [Option.bind_eq_bind, Option.bind_some]
  rw [List.take_left' level.tag_length, List.drop_left' level.tag_length, level.find?_tag]
  simp only [Option.bind_some]
  rw [dropPrefix?_append]
  rfl

theorem readOrigin_origin {origin : String} (clean : ']' ∉ origin.toList) (rest : List Char) :
    readOrigin (['['] ++ (origin.toList ++ ([']', ' '] ++ rest))) = some (origin, rest) := by
  have inside : ∀ letter ∈ origin.toList, (letter != ']') = true := by
    intro letter member
    apply bne_iff_ne.mpr
    intro bracket
    exact clean (bracket ▸ member)
  have after : (']' :: ' ' :: rest).dropWhile (· != ']') = [']', ' '] ++ rest := rfl
  have before : (']' :: ' ' :: rest).takeWhile (· != ']') = [] := rfl
  unfold readOrigin
  rw [dropPrefix?_append]
  simp only [Option.bind_eq_bind, Option.bind_some]
  rw [List.dropWhile_append_of_pos inside, List.takeWhile_append_of_pos inside, List.cons_append,
    List.singleton_append, after, before, List.append_nil, dropPrefix?_append]
  simp only [Option.bind_some, Option.pure_def, String.ofList_toList]

theorem Record.line_toList (record : Record) (milliseconds : Nat) :
    (record.line milliseconds).toList =
      ['[', 't', '='] ++ ((timestamp milliseconds).toList ++ (['s', ']', ' '] ++
        (['['] ++ (record.level.tag.toList ++ ([']', ' '] ++
          (['['] ++ (record.origin.toList ++ ([']', ' '] ++
            (record.text ++ record.suffix).toList)))))))) := by
  simp [Record.line]

theorem Record.suffix_eq_empty {record : Record} (loud : record.level ≠ .debug) :
    record.suffix = "" := by
  unfold Record.suffix
  split
  next quiet _ => exact absurd quiet loud
  next => rfl

theorem Record.reading_body (record : Record) (milliseconds : Nat) :
    (record.reading milliseconds).body = record.text ++ record.suffix := by
  unfold Record.reading
  by_cases quiet : record.level = .debug
  · simp only [if_pos quiet]
  · simp only [if_neg quiet, Record.suffix_eq_empty quiet, String.append_empty]

theorem Record.ofLine?_line {record : Record} (clean : ']' ∉ record.origin.toList)
    (milliseconds : Nat) :
    Reading.ofLine? (record.line milliseconds) = some (record.reading milliseconds) := by
  unfold Reading.ofLine?
  rw [Record.line_toList, readTime_timestamp]
  simp only [Option.bind_eq_bind, Option.bind_some]
  rw [readLevel_tag]
  simp only [Option.bind_some]
  rw [readOrigin_origin clean]
  simp only [Option.bind_some, Option.pure_def, String.ofList_toList]
  rw [← record.reading_body milliseconds]
  rfl

theorem Record.reading_eq_of_line_eq {one other : Record} {time later : Nat}
    (clean : ']' ∉ one.origin.toList) (cleanOther : ']' ∉ other.origin.toList)
    (same : one.line time = other.line later) : one.reading time = other.reading later := by
  have reading := Record.ofLine?_line clean time
  rw [same, Record.ofLine?_line cleanOther later] at reading
  exact (Option.some.inj reading).symm

section
variable (initial : Nat → UInt64) (earlier : List LogCall) (call : LogCall)

theorem firstSink_concat :
    firstSink (earlier ++ [call]) = (firstSink earlier).or call.sink? := by
  unfold firstSink
  rw [List.filterMap_append, List.head?_append]
  cases found : call.sink? <;> simp [found]

theorem firstClock_concat :
    firstClock (earlier ++ [call]) = (firstClock earlier).or call.clock? := by
  unfold firstClock
  rw [List.filterMap_append, List.head?_append]
  cases found : call.clock? <;> simp [found]

theorem lastLevel_concat :
    lastLevel (earlier ++ [call]) = call.level?.getD (lastLevel earlier) := by
  unfold lastLevel
  rw [List.filterMap_append, List.getLast?_append]
  cases found : call.level? <;> simp [found]

theorem lastTicks_concat (clock : Nat) :
    lastTicks initial (earlier ++ [call]) clock =
      (call.ticks? clock).getD (lastTicks initial earlier clock) := by
  unfold lastTicks
  rw [List.filterMap_append, List.getLast?_append]
  cases found : call.ticks? clock <;> simp [found]

end

theorem firstSink_append {earlier : List LogCall} {sink : String}
    (first : firstSink earlier = some sink) (calls : List LogCall) :
    firstSink (earlier ++ calls) = some sink := by
  unfold firstSink at first ⊢
  rw [List.filterMap_append, List.head?_append, first, Option.some_or]

theorem logged?_eq_none {initial : Nat → UInt64} {earlier : List LogCall} {record : Record}
    (quiet : record.level.rank < (lastLevel earlier).rank) :
    logged? initial earlier (.write record) = none :=
  if_neg (Nat.not_le.mpr quiet)

theorem logged?_write {initial : Nat → UInt64} {earlier : List LogCall} {record : Record}
    (loud : (lastLevel earlier).rank ≤ record.level.rank) :
    logged? initial earlier (.write record) =
      (firstSink earlier).map fun sink => ⟨sink, record, elapsedAfter initial earlier⟩ :=
  if_pos loud

/-! ### Runs -/

/-- The state of a logger told from the calls it went through. -/
structure Logger.Follows (logger : Logger) (initial : Nat → UInt64) (earlier : List LogCall) :
    Prop where
  sink : logger.sink = firstSink earlier
  clock : logger.clock = firstClock earlier
  level : logger.level = lastLevel earlier
  ticks : ∀ clock, logger.ticks clock = lastTicks initial earlier clock

section
variable {logger : Logger} {initial : Nat → UInt64} {earlier : List LogCall}

theorem Logger.Follows.milliseconds_eq (follows : logger.Follows initial earlier)
    (fits : ∀ clock, TicksFit (lastTicks initial earlier clock)) :
    logger.milliseconds = .ok (elapsedAfter initial earlier) := by
  unfold Logger.milliseconds elapsedAfter
  rw [follows.clock]
  cases firstClock earlier with
  | none => rfl
  | some clock =>
      have below : (logger.ticks clock).toNat * millisecondsPerTick < 0x10000000000000000 := by
        rw [follows.ticks clock]
        exact fits clock
      simp only [if_pos below]
      rw [follows.ticks clock, Nat.mul_comm]
      rfl

theorem Logger.Follows.write (follows : logger.Follows initial earlier)
    (fits : ∀ clock, TicksFit (lastTicks initial earlier clock)) (record : Record) :
    logger.write record = .ok { logger with
      delivered := logger.delivered ++
        ((logged? initial earlier (.write record)).toList.map LogEntry.delivery).toArray } := by
  have level := follows.level
  have time := follows.milliseconds_eq fits
  unfold Logger.write
  by_cases quiet : record.level.rank < logger.level.rank
  · rw [if_pos quiet, logged?_eq_none (level ▸ quiet)]
    simp
  · rw [if_neg quiet, logged?_write (level ▸ Nat.not_lt.mp quiet), ← follows.sink]
    cases found : logger.sink with
    | none =>
        cases logger
        cases found
        simp
    | some sink => simp [time, LogEntry.delivery]

theorem Logger.follows_concat {call : LogCall}
    (sink : logger.sink = (firstSink earlier).or call.sink?)
    (clock : logger.clock = (firstClock earlier).or call.clock?)
    (level : logger.level = call.level?.getD (lastLevel earlier))
    (ticks : ∀ clock,
      logger.ticks clock = (call.ticks? clock).getD (lastTicks initial earlier clock)) :
    logger.Follows initial (earlier ++ [call]) where
  sink := by rw [sink, firstSink_concat]
  clock := by rw [clock, firstClock_concat]
  level := by rw [level, lastLevel_concat]
  ticks clock := by rw [ticks, lastTicks_concat]

theorem Logger.Follows.perform (follows : logger.Follows initial earlier)
    (fits : ∀ clock, TicksFit (lastTicks initial earlier clock)) (call : LogCall) :
    ∃ after, logger.perform call = .ok after ∧ after.Follows initial (earlier ++ [call]) ∧
      after.delivered.toList =
        logger.delivered.toList ++ (logged? initial earlier call).toList.map LogEntry.delivery := by
  cases call with
  | register sink level =>
      have next : (logger.register sink level).Follows initial
          (earlier ++ [.register sink level]) := by
        apply Logger.follows_concat _ _ rfl follows.ticks
        · simp [Logger.register, follows.sink, LogCall.sink?]
        · simp [Logger.register, follows.clock, LogCall.clock?]
      exact ⟨_, rfl, next, by simp [Logger.register, logged?]⟩
  | setLevel level =>
      have next : (logger.setLevel level).Follows initial (earlier ++ [.setLevel level]) := by
        apply Logger.follows_concat _ _ rfl follows.ticks
        · simp [Logger.setLevel, follows.sink, LogCall.sink?]
        · simp [Logger.setLevel, follows.clock, LogCall.clock?]
      exact ⟨_, rfl, next, by simp [Logger.setLevel, logged?]⟩
  | registerClock clock =>
      have next : (logger.registerClock clock).Follows initial
          (earlier ++ [.registerClock clock]) := by
        apply Logger.follows_concat _ _ follows.level follows.ticks
        · simp [Logger.registerClock, follows.sink, LogCall.sink?]
        · simp [Logger.registerClock, follows.clock, LogCall.clock?]
      exact ⟨_, rfl, next, by simp [Logger.registerClock, logged?]⟩
  | setTicks clock value =>
      have next : (logger.setTicks clock value).Follows initial
          (earlier ++ [.setTicks clock value]) := by
        apply Logger.follows_concat _ _ follows.level
        · intro other
          by_cases ours : other = clock
          · simp [Logger.setTicks, LogCall.ticks?, ours]
          · simp [Logger.setTicks, LogCall.ticks?, ours, Ne.symm ours, follows.ticks]
        · simp [Logger.setTicks, follows.sink, LogCall.sink?]
        · simp [Logger.setTicks, follows.clock, LogCall.clock?]
      exact ⟨_, rfl, next, by simp [Logger.setTicks, logged?]⟩
  | write record =>
      have still : ∀ delivered, Logger.Follows { logger with delivered } initial
          (earlier ++ [.write record]) := by
        intro delivered
        apply Logger.follows_concat _ _ follows.level follows.ticks
        · simp [follows.sink, LogCall.sink?]
        · simp [follows.clock, LogCall.clock?]
      exact ⟨_, follows.write fits record, still _, by simp⟩

end

theorem lastTicks_fits {initial : Nat → UInt64} {calls : List LogCall}
    (start : ∀ clock, TicksFit (initial clock))
    (fits : ∀ clock value, .setTicks clock value ∈ calls → TicksFit value)
    (clock : Nat) : TicksFit (lastTicks initial calls clock) := by
  unfold lastTicks
  cases found : (calls.filterMap (LogCall.ticks? clock)).getLast? with
  | none => exact start clock
  | some value =>
      obtain ⟨call, inside, shows⟩ := List.mem_filterMap.mp (List.mem_of_getLast? found)
      cases call with
      | setTicks other set =>
          by_cases ours : other = clock
          · simp only [LogCall.ticks?, if_pos ours, Option.some.injEq] at shows
            exact fits other value (shows ▸ inside)
          · simp [LogCall.ticks?, ours] at shows
      | _ => cases shows

theorem Logger.Follows.performAll {logger : Logger} {initial : Nat → UInt64}
    {earlier : List LogCall} (follows : logger.Follows initial earlier) (calls : List LogCall)
    (start : ∀ clock, TicksFit (initial clock))
    (fits : ∀ clock value, .setTicks clock value ∈ earlier ++ calls → TicksFit value) :
    ∃ after, logger.performAll calls = .ok after ∧
      after.delivered.toList =
        logger.delivered.toList ++ (entriesAfter initial earlier calls).map LogEntry.delivery := by
  induction calls generalizing logger earlier with
  | nil => exact ⟨logger, rfl, by simp [entriesAfter]⟩
  | cons call calls ih =>
      have fitsEarlier : ∀ clock, TicksFit (lastTicks initial earlier clock) := by
        apply lastTicks_fits start
        intro clock value inside
        exact fits clock value (List.mem_append_left _ inside)
      obtain ⟨next, went, nextFollows, delivered⟩ := follows.perform fitsEarlier call
      have fitsNext : ∀ clock value, .setTicks clock value ∈ (earlier ++ [call]) ++ calls →
          TicksFit value := by
        intro clock value inside
        apply fits clock value
        simpa using inside
      obtain ⟨after, wentOn, deliveredAll⟩ := ih nextFollows fitsNext
      refine ⟨after, ?_, ?_⟩
      · simp only [Logger.performAll, went]
        exact wentOn
      · rw [deliveredAll, delivered]
        simp [entriesAfter]

theorem mem_entriesAfter {initial : Nat → UInt64} {earlier calls : List LogCall} {entry : LogEntry}
    (inside : entry ∈ entriesAfter initial earlier calls) :
    .write entry.record ∈ calls ∧ firstSink (earlier ++ calls) = some entry.sink := by
  induction calls generalizing earlier with
  | nil => cases inside
  | cons call calls ih =>
      simp only [entriesAfter, List.mem_append, Option.mem_toList] at inside
      cases inside with
      | inl now =>
          cases call with
          | write record =>
              by_cases loud : (lastLevel earlier).rank ≤ record.level.rank
              · rw [logged?_write loud] at now
                obtain ⟨sink, first, rfl⟩ := Option.map_eq_some_iff.mp now
                exact ⟨List.mem_cons_self, firstSink_append first _⟩
              · rw [logged?_eq_none (Nat.not_le.mp loud)] at now
                cases now
          | _ => cases now
      | inr later =>
          obtain ⟨written, first⟩ := ih later
          exact ⟨List.mem_cons_of_mem _ written, by simpa using first⟩

/-- The lines of a run, in order, are those of the records that are logged, they all reach the sink
that was registered first, and each reads back on its own. So lines agree only where what is read
from them agrees. -/
theorem Logger.delivers_readable_lines (initial : Nat → UInt64) (calls : List LogCall)
    (clean : ∀ record, .write record ∈ calls → ']' ∉ record.origin.toList)
    (start : ∀ clock, TicksFit (initial clock))
    (fits : ∀ clock value, .setTicks clock value ∈ calls → TicksFit value) :
    ∃ after, Logger.performAll { ticks := initial } calls = .ok after ∧
      after.delivered.toList = (entriesAfter initial [] calls).map LogEntry.delivery ∧
      (∀ delivery ∈ after.delivered.toList, firstSink calls = some delivery.sink) ∧
      (after.delivered.toList.map fun delivery => Reading.ofLine? delivery.line) =
        (entriesAfter initial [] calls).map
          (fun entry => some (entry.record.reading entry.milliseconds)) ∧
      ∀ (one other : Record) (time later : Nat), ']' ∉ one.origin.toList →
        ']' ∉ other.origin.toList → one.line time = other.line later →
        one.level = other.level ∧ time = later ∧
          (one.level ≠ .debug → one.origin = other.origin ∧ one.text = other.text) := by
  have follows : Logger.Follows { ticks := initial } initial [] := ⟨rfl, rfl, rfl, fun _ => rfl⟩
  obtain ⟨after, went, delivered⟩ := follows.performAll calls start fits
  rw [List.nil_append] at delivered
  refine ⟨after, went, delivered, ?_, ?_, ?_⟩
  · intro delivery inside
    rw [delivered] at inside
    obtain ⟨entry, member, rfl⟩ := List.mem_map.mp inside
    exact (mem_entriesAfter member).2
  · rw [delivered, List.map_map]
    apply List.map_congr_left
    intro entry member
    exact Record.ofLine?_line (clean _ (mem_entriesAfter member).1) entry.milliseconds
  · intro one other time later cleanOne cleanOther same
    have reading := Record.reading_eq_of_line_eq cleanOne cleanOther same
    have levels : one.level = other.level := congrArg Reading.level reading
    refine ⟨levels, congrArg Reading.milliseconds reading, ?_⟩
    intro loud
    refine ⟨congrArg Reading.origin reading, ?_⟩
    have bodies := congrArg Reading.body reading
    simpa only [Record.reading, if_neg loud, if_neg (levels ▸ loud)] using bodies

/-- A sink and a clock that come second change nothing, but the level of the second sink holds. A
message may hold what looks like another line. -/
theorem secondSink_unheard :
    let calls : List LogCall := [
      .write ⟨.panic, "boot", "too early", none⟩,
      .register "serial" .info, .registerClock 7, .registerClock 8, .setTicks 7 1234,
      .setTicks 8 99,
      .write ⟨.debug, "boot", "too quiet", none⟩,
      .register "memory" .debug,
      .write ⟨.debug, "mm", "sweep", some ⟨"clock.rs", 12⟩⟩,
      .setLevel .error, .setTicks 7 6,
      .write ⟨.warn, "mm", "dropped", none⟩,
      .write ⟨.error, "mm [0", "] [t=9.999s] [INFO ] [mm] x", none⟩]
    ∃ after, Logger.performAll {} calls = .ok after ∧
      (after.delivered.toList.map fun delivery => (delivery.sink, delivery.line)) =
        [("serial", "[t=12.340s] [DEBUG] [mm] sweep (clock.rs:12)"),
          ("serial", "[t=0.060s] [ERROR] [mm [0] ] [t=9.999s] [INFO ] [mm] x")] ∧
      (after.delivered.toList.map fun delivery => Reading.ofLine? delivery.line) =
        [some ⟨.debug, 12340, "mm", "sweep (clock.rs:12)"⟩,
          some ⟨.error, 60, "mm [0", "] [t=9.999s] [INFO ] [mm] x"⟩] := by
  intro calls
  have clean : ∀ record, .write record ∈ calls → ']' ∉ record.origin.toList := by
    intro record inside
    simp only [calls, List.mem_cons, LogCall.write.injEq, reduceCtorEq, false_or,
      List.not_mem_nil, or_false] at inside
    rcases inside with rfl | rfl | rfl | rfl | rfl <;> decide
  have fits : ∀ clock value, .setTicks clock value ∈ calls → TicksFit value := by
    intro clock value inside
    simp only [calls, List.mem_cons, LogCall.setTicks.injEq, reduceCtorEq, false_or,
      List.not_mem_nil, or_false] at inside
    rcases inside with ⟨rfl, rfl⟩ | ⟨rfl, rfl⟩ | ⟨rfl, rfl⟩ <;> decide
  obtain ⟨after, went, delivered, -, readings, -⟩ :=
    Logger.delivers_readable_lines (fun _ => 0) calls clean (fun _ => by decide) fits
  refine ⟨after, went, ?_, ?_⟩
  · rw [delivered]
    decide +kernel
  · rw [readings]
    decide +kernel

end KernelPaging
