import GoogleCalendar.CalendarScan

/-!
# The default window of an attachment

A default window is read from two of its start, its end and its length, or from the
length alone, which makes it a dynamic one around the time of each scan. The casts
of the options and the sum of an instant and an interval belong to the engine.
-/

namespace GoogleCalendar.AttachWindow

/-- The engine's casts of an option's value and `Interval::Add`. -/
structure WindowFunctions (ω : Type) where
  /-- `DefaultTryCastAs(LogicalType::TIMESTAMP_TZ)`, with the text of its error. -/
  castTimestampTz : ω → Except String Int
  /-- `DefaultTryCastAs(LogicalType::INTERVAL)`, with the text of its error. -/
  castInterval : ω → Except String Interval
  intervalAdd : Int → Interval → Except Exception Int

/-- The options of a default window that are given. -/
structure WindowOptions (ω : Type) where
  defaultWindowStart : Option ω := none
  defaultWindowEnd : Option ω := none
  defaultWindowLength : Option ω := none
  deriving DecidableEq, Repr

/-- Two's complement reduction to 32 bits. -/
def int32 (value : Int) : Int := Int.bmod value (2 ^ 32)

/-- `{-w.months, -w.days, -w.micros}`. -/
def negated (length : Interval) : Interval :=
  ⟨int32 (-length.months), int32 (-length.days), int64 (-length.micros)⟩

variable {ω : Type} (functions : WindowFunctions ω)

/-- `to_ts`: an option as a timestamp. -/
def toTs (val : ω) (name : String) : Except Exception Int :=
  match functions.castTimestampTz val with
  | .ok micros => .ok micros
  | .error message =>
      .error (.binder (name ++ " must be a TIMESTAMP WITH TIME ZONE: " ++ message))

/-- `to_iv`: an option as an interval. -/
def toIv (val : ω) : Except Exception Interval :=
  match functions.castInterval val with
  | .ok interval => .ok interval
  | .error message => .error (.binder
      ("default_window_length must be an INTERVAL (e.g. 'P90D', '3 months'): " ++ message))

/-- The window between two instants. -/
def staticWindow (start finish : Int) : DefaultWindow :=
  { hasDefaultWindow := true, defaultWindowStart := start, defaultWindowEnd := finish }

/-- The window of a length around the time of the scan. -/
def dynamicWindow (length : Interval) : DefaultWindow :=
  { hasDefaultWindow := true, defaultIsDynamic := true, defaultWindowLength := length }

/-- The options of the default window, in the order in which they are checked. -/
def readDefaultWindow (options : WindowOptions ω) : Except Exception DefaultWindow :=
  match options.defaultWindowStart, options.defaultWindowEnd, options.defaultWindowLength with
  | none, none, none => .ok {}
  | some _, some _, some _ => .error (.binder
      "specify at most two of default_window_start / default_window_end / default_window_length")
  | none, none, some length => do
      let width ← toIv functions length
      pure (dynamicWindow width)
  | some start, some finish, none => do
      let first ← toTs functions start "default_window_start"
      let last ← toTs functions finish "default_window_end"
      pure (staticWindow first last)
  | some start, none, some length => do
      let first ← toTs functions start "default_window_start"
      let width ← toIv functions length
      let last ← functions.intervalAdd first width
      pure (staticWindow first last)
  | none, some finish, some length => do
      let last ← toTs functions finish "default_window_end"
      let width ← toIv functions length
      let first ← functions.intervalAdd last (negated width)
      pure (staticWindow first last)
  | some _, none, none | none, some _, none => .error (.binder
      ("default_window_start / default_window_end must be paired with each other " ++
        "or with default_window_length"))

end GoogleCalendar.AttachWindow
