import HomeBasic.Proofs.Machine.Moves
import HomeBasic.Proofs.Machine.Untouched
import HomeBasic.Recorder

/-!
# Time that a line takes

A `WAIT` and a `BEEP` let time pass in slices, with a look at the break key before each of them.
All that is known of the console is that its clock is moved by these slices alone, and how it
records a tone (`Console.Timed`); the break key may be found down at any look. The time that is
still ahead gets less with every slice, and the last slice is cut to what is left of it. So the
pause ends, with the time that was asked for or with the first look that finds the key down.

Main statement: `lasts_as_asked`.
-/

namespace HomeBasic

/-! ## Consoles that keep the time -/

namespace Console

variable {H : Type} [Console H]

/-- The clock is moved by delays alone, and a tone is recorded with its length when it ends. -/
structure Timed (tone : H → Option (Int × Nat)) (tones : H → List (Int × Nat)) : Prop where
  clock_delay : ∀ duration (console : H),
    clock (delay duration console) = clock console + duration
  clock_breakHeld : ∀ console : H, clock (breakHeld console).2 = clock console
  clock_startTone : ∀ pitch (console : H), clock (startTone pitch console) = clock console
  tone_delay : ∀ duration console, tone (delay duration console) = tone console
  tone_breakHeld : ∀ console, tone (breakHeld console).2 = tone console
  tones_delay : ∀ duration console, tones (delay duration console) = tones console
  tones_breakHeld : ∀ console, tones (breakHeld console).2 = tones console
  tone_startTone : ∀ pitch console, tone (startTone pitch console) = some (pitch, clock console)
  tone_stopTone : ∀ console, tone (stopTone console) = none
  tones_stopTone : ∀ console pitch since, tone console = some (pitch, since) →
    tones (stopTone console) = (pitch, clock console - since) :: tones console

/-- Time passes in slices within a limit, each after a look at the break key that found it up. -/
inductive Waits (limit : Nat) : H → List Nat → H → Prop
  | nil (console : H) : Waits limit console [] console
  | cons {console last : H} {slice : Nat} {slices : List Nat} :
      (breakHeld console).1 = false → 0 < slice → slice ≤ limit →
      Waits limit (delay slice (breakHeld console).2) slices last →
      Waits limit console (slice :: slices) last

/-- A pause ends when all of its time has passed, or with a look that finds the break key down. -/
inductive Pauses (limit duration : Nat) (first : H) (slices : List Nat) :
    Except Fault Unit → H → Prop
  | ended {last : H} : Waits limit first slices last → slices.sum = duration →
      Pauses limit duration first slices (.ok ()) last
  | broken {last : H} : Waits limit first slices last → slices.sum < duration →
      (breakHeld last).1 = true →
      Pauses limit duration first slices (.error .stopped) (breakHeld last).2

variable {tone : H → Option (Int × Nat)} {tones : H → List (Int × Nat)} {limit duration : Nat}
  {first last : H} {slices : List Nat} {outcome : Except Fault Unit}

/-- A slice more in front of a pause. -/
theorem Pauses.cons {slice : Nat} (up : (breakHeld first).1 = false) (some : 0 < slice)
    (short : slice ≤ limit)
    (pauses : Pauses limit duration (delay slice (breakHeld first).2) slices outcome last) :
    Pauses limit (slice + duration) first (slice :: slices) outcome last := by
  cases pauses with
  | ended waits passed => exact .ended (.cons up some short waits) (by rw [List.sum_cons, passed])
  | broken waits early down =>
      exact .broken (.cons up some short waits)
        (by rw [List.sum_cons]; exact Nat.add_lt_add_left early slice) down

/-- What looks and delays do: the slices pass on the clock, and no tone begins or ends. -/
structure Elapsed (tone : H → Option (Int × Nat)) (tones : H → List (Int × Nat)) (time : Nat)
    (first last : H) : Prop where
  clock : clock last = clock first + time
  tone : tone last = tone first
  tones : tones last = tones first

section
variable (timed : Timed tone tones)
include timed

theorem Timed.breakHeld (console : H) : Elapsed tone tones 0 console (breakHeld console).2 :=
  ⟨timed.clock_breakHeld console, timed.tone_breakHeld console, timed.tones_breakHeld console⟩

theorem Waits.elapsed (waits : Waits limit first slices last) :
    Elapsed tone tones slices.sum first last := by
  induction waits with
  | nil console => exact ⟨rfl, rfl, rfl⟩
  | @cons console last slice slices _ _ _ _ inductionHypothesis =>
      have looked := timed.breakHeld console
      constructor
      · rw [inductionHypothesis.clock, timed.clock_delay, looked.clock, List.sum_cons]
        omega
      · rw [inductionHypothesis.tone, timed.tone_delay, looked.tone]
      · rw [inductionHypothesis.tones, timed.tones_delay, looked.tones]

theorem Pauses.elapsed (pauses : Pauses limit duration first slices outcome last) :
    Elapsed tone tones slices.sum first last := by
  cases pauses with
  | ended waits _ => exact waits.elapsed timed
  | @broken last waits _ _ =>
      have waited := waits.elapsed timed
      have looked := timed.breakHeld last
      exact ⟨looked.clock.trans waited.clock, looked.tone.trans waited.tone,
        looked.tones.trans waited.tones⟩

end
end Console

/-- A recorder keeps the time and records tones. -/
theorem Recorder.timed {S : Type} [SlotStore S] :
    Console.Timed (Recorder.tone : Recorder S → _) Recorder.tones where
  clock_delay _ _ := rfl
  clock_breakHeld _ := rfl
  clock_startTone _ recorder := by
    change recorder.stopTone.clock = recorder.clock
    unfold stopTone
    split <;> rfl
  tone_delay _ _ := rfl
  tone_breakHeld _ := rfl
  tones_delay _ _ := rfl
  tones_breakHeld _ := rfl
  tone_startTone _ _ := rfl
  tone_stopTone recorder := by
    change recorder.stopTone.tone = none
    unfold stopTone
    split
    next silent => exact silent
    next => rfl
  tones_stopTone recorder pitch since playing := by
    change recorder.stopTone.tones = _
    rw [stopTone, playing]
    rfl

/-- The time that a command takes, and the tone that it sounds for so long. -/
def Command.lasting? : Command → Option (Int × Option Int)
  | .wait duration => some (duration, none)
  | .beep duration pitch => some (duration, some pitch)
  | _ => none

namespace Machine

open Console (Pauses Timed)

variable {H : Type} [Console H] {machine carrier : Machine H} {tone : H → Option (Int × Nat)}
  {tones : H → List (Int × Nat)}

/-! ## The end of a line -/

/-- How a line ends does not depend on what it was doing. -/
theorem conclude_withPhase (inProgram : Bool) (outcome : Except Fault Unit) (machine : Machine H)
    (phase : Phase) :
    conclude inProgram outcome { machine with phase } = conclude inProgram outcome machine := by
  unfold conclude
  rcases outcome with fault | ⟨⟩
  · cases fault <;> rfl
  · rfl

theorem lineDone_withPhase (inProgram : Bool) (machine : Machine H) (phase : Phase) :
    lineDone inProgram { machine with phase } = lineDone inProgram machine := by
  have ends := conclude_withPhase true (.error .stopped)
    { machine with console := (Console.breakHeld machine.console).2 } phase
  have endsWell := conclude_withPhase false (.ok ()) machine phase
  unfold lineDone
  cases inProgram with
  | true =>
      rw [if_pos rfl, if_pos rfl]
      dsimp only
      rw [ends]
  | false =>
      rw [if_neg Bool.false_ne_true, if_neg Bool.false_ne_true, endsWell]

/-- Ends a line, whatever came of it. -/
def endLine (inProgram : Bool) : Except Fault Unit → Machine H → Machine H
  | .ok () => lineDone inProgram
  | .error fault => conclude inProgram (.error fault)

/-- A line that took its time ends as one that took none. -/
theorem endLine_withPhase {turn : Turn H} (found : machine.turn? = some turn) {console : H}
    (inProgram : Bool) (outcome : Except Fault Unit) (phase : Phase) :
    endLine inProgram outcome { turn.machine with console, phase } =
      proceed inProgram (outcome, { turn.machine with console }) := by
  cases outcome with
  | error fault => exact conclude_withPhase inProgram _ { turn.machine with console } phase
  | ok =>
      refine (lineDone_withPhase inProgram { turn.machine with console } phase).trans ?_
      rcases turn?_cases found with ⟨statement, direct, rfl⟩ | ⟨running, -, rfl⟩
      · rw [proceed]
        dsimp only
        rw [direct]
      · rw [proceed]
        dsimp only
        rw [running]

/-! ## Pauses -/

/-- From any time on, a pause goes on to its end: by induction on the time that is still ahead. -/
theorem exists_pauses (timed : Timed tone tones) (often : 1 ≤ machine.config.breakInterval)
    {deadline duration : Nat} {sounding inProgram : Bool}
    (phase : machine.phase = .pausing deadline sounding inProgram)
    (ahead : deadline = Console.clock machine.console + duration) :
    ∃ slices outcome last,
      Pauses machine.config.breakInterval duration machine.console slices outcome last ∧
      advance^[slices.length + 1] machine =
        endLine inProgram outcome (endPause sounding { machine with console := last }) := by
  induction duration using Nat.strong_induction_on generalizing machine with
  | h duration inductionHypothesis =>
      have advances : machine.advance = machine.advancePause deadline sounding inProgram := by
        rw [advance, phase]
      unfold advancePause at advances
      dsimp only at advances
      by_cases elapsed : duration = 0
      · rw [if_pos (by omega)] at advances
        exact ⟨[], .ok (), machine.console, .ended (.nil _) elapsed.symm, advances⟩
      · rw [if_neg (by omega)] at advances
        cases held : (Console.breakHeld machine.console).1 with
        | true =>
            rw [if_pos held] at advances
            exact ⟨[], .error .stopped, _,
              .broken (.nil _) (Nat.pos_of_ne_zero elapsed) held, advances⟩
        | false =>
            rw [if_neg (by rw [held]; decide)] at advances
            obtain ⟨slice, cut⟩ : ∃ slice, slice =
                min (deadline - Console.clock machine.console) machine.config.breakInterval :=
              ⟨_, rfl⟩
            rw [← cut] at advances
            have moved : Console.clock (Console.delay slice (Console.breakHeld machine.console).2) =
                Console.clock machine.console + slice := by
              rw [timed.clock_delay, timed.clock_breakHeld]
            obtain ⟨slices, outcome, last, pauses, ends⟩ :=
              @inductionHypothesis (duration - slice) (by omega)
                { machine with
                  console := Console.delay slice (Console.breakHeld machine.console).2 }
                often phase (by dsimp only; omega)
            have whole := pauses.cons held (show 0 < slice by omega)
              (show slice ≤ machine.config.breakInterval by omega)
            rw [show slice + (duration - slice) = duration by omega] at whole
            refine ⟨slice :: slices, outcome, last, whole, ?_⟩
            rw [List.length_cons, Function.iterate_succ_apply, advances]
            exact ends

/-! ## Commands that take their time -/

/-- The console once the tone of a command has begun, if it has one. -/
def sounded (pitch : Option Int) (console : H) : H :=
  pitch.elim console (Console.startTone · console)

/-- The console once the tone of a command has ended, if it has one. -/
def silenced (pitch : Option Int) (console : H) : H :=
  pitch.elim console fun _ => Console.stopTone console

theorem clock_sounded (timed : Timed tone tones) (pitch : Option Int) (console : H) :
    Console.clock (sounded pitch console) = Console.clock console := by
  cases pitch with
  | none => rfl
  | some pitch => exact timed.clock_startTone pitch console

theorem endPause_isSome (pitch : Option Int) (machine : Machine H) (console : H) :
    endPause pitch.isSome { machine with console } =
      { machine with console := silenced pitch console } := by
  cases pitch <;> rfl

theorem perform_lasting {command : Command} {duration : Int} {pitch : Option Int}
    (lasts : command.lasting? = some (duration, pitch)) (machine : Machine H) :
    perform command machine =
      if duration < 0 then (.error .arithmeticOverflow, machine)
      else
        (.ok (), { machine with
          console := sounded pitch machine.console
          phase := .pausing
            (Console.clock (sounded pitch machine.console) + duration.toNat) pitch.isSome
            (machine.phase = .running) }) := by
  cases command with
  | wait time =>
      cases lasts
      rw [perform]
      split <;> rfl
  | beep time note =>
      cases lasts
      rw [perform]
      split <;> rfl
  | _ => cases lasts

/--
A `WAIT` and a `BEEP` take exactly the time that was asked for, and can be broken off.

Let the next step carry out such a command, for any time and pitch. If the time is negative, the
line fails with an overflow, and nothing is sounded or waited for. Otherwise the line takes slices
of time that are no longer than the interval between two looks, each after a look at the break key
that found it up. It ends well when the slices add up to the time that was asked for, or it is
stopped by the first look that finds the key down, with less time passed; either way as a line
that took no time would end. The clock has moved on by the slices, and a tone is silent then and
recorded with just this length.
-/
theorem lasts_as_asked (timed : Timed tone tones) (often : 1 ≤ machine.config.breakInterval)
    {command : Command} {duration : Int} {pitch : Option Int}
    (order : machine.order? = some (command, carrier))
    (lasts : command.lasting? = some (duration, pitch)) :
    (duration < 0 →
      machine.advance = proceed (carrier.phase = .running) (.error .arithmeticOverflow, carrier)) ∧
    (0 ≤ duration → ∃ slices outcome last,
      Pauses machine.config.breakInterval duration.toNat (sounded pitch carrier.console) slices
        outcome last ∧
      Console.clock last = Console.clock carrier.console + slices.sum ∧
      advance^[slices.length + 2] machine =
        proceed (carrier.phase = .running)
          (outcome, { carrier with console := silenced pitch last }) ∧
      ∀ note ∈ pitch, tone (silenced pitch last) = none ∧
        tones (silenced pitch last) =
          (note, slices.sum) :: tones (Console.startTone note carrier.console)) := by
  obtain ⟨turn, console, found, rfl, advances⟩ := exists_turn_of_order order
  have config : turn.machine.config = machine.config := by
    obtain ⟨jump, line, same⟩ := exists_of_turn? found
    rw [same]
  have inProgram : turn.inProgram = decide (turn.machine.phase = .running) := by
    rcases turn?_cases found with ⟨statement, direct, rfl⟩ | ⟨running, -, rfl⟩
    · exact (decide_eq_false fun running => by cases direct.symm.trans running).symm
    · exact (decide_eq_true running).symm
  rw [perform_lasting lasts, inProgram] at advances
  refine ⟨fun negative => ?_, fun natural => ?_⟩
  · rw [if_pos negative] at advances
    exact advances
  · rw [if_neg (Int.not_lt.mpr natural)] at advances
    rw [← config] at often ⊢
    obtain ⟨slices, outcome, last, pauses, ends⟩ :=
      @exists_pauses H _
        { turn.machine with
          console := sounded pitch console
          phase := .pausing (Console.clock (sounded pitch console) + duration.toNat) pitch.isSome
            (turn.machine.phase = .running) }
        tone tones timed often _ _ _ _ rfl rfl
    rw [endPause_isSome] at ends
    have elapsed := pauses.elapsed timed
    have clock : Console.clock last = Console.clock console + slices.sum := by
      rw [elapsed.clock, clock_sounded timed]
    refine ⟨slices, outcome, last, pauses, clock, ?_, fun note sounds => ?_⟩
    · rw [Function.iterate_succ_apply, advances]
      exact ends.trans (endLine_withPhase found _ outcome _)
    · cases sounds
      have playing : tone last = some (note, Console.clock console) :=
        elapsed.tone.trans (timed.tone_startTone note console)
      refine ⟨timed.tone_stopTone last, ?_⟩
      rw [silenced, Option.elim_some, timed.tones_stopTone last _ _ playing, clock, elapsed.tones,
        Nat.add_sub_cancel_left]
      rfl

/-- A machine that is about to sound a tone, with a break key that is found down after a while. -/
def beeping : Machine (Recorder MemorySlots) :=
  { start {} { Recorder.start {} [] (MemorySlots.empty 2) with breakAt := some 30 } with
    program := ⟨Program.packLines [Line.ofText "10 BEEP 50,7"] ++ Program.terminator, 256⟩
    phase := .running
    jump := some 10 }

/-- A tone for 50 is broken off by the look after 40. -/
theorem lasts_as_asked_brokenOff :
    ∃ carrier, beeping.order? = some (.beep 50 7, carrier) ∧
      (∃ slices outcome last,
        Pauses 20 50 (Console.startTone 7 carrier.console) slices outcome last ∧
        advance^[slices.length + 2] beeping =
          proceed (carrier.phase = .running)
            (outcome, { carrier with console := Console.stopTone last }) ∧
        Recorder.tones (Console.stopTone last) =
          (7, slices.sum) :: Recorder.tones (Console.startTone 7 carrier.console)) ∧
      (advance^[4] beeping).phase = .editing ∧
      (advance^[4] beeping).console.tones = [(7, 40)] ∧
      (advance^[4] beeping).console.text = "9/0\n" := by
  have asks : beeping.order?.map Prod.fst = some (.beep 50 7) := by
    rw [← asked_eq]
    decide +kernel
  obtain ⟨⟨command, carrier⟩, order, rfl⟩ := Option.map_eq_some_iff.mp asks
  obtain ⟨-, lasts⟩ :=
    lasts_as_asked Recorder.timed (show 1 ≤ beeping.config.breakInterval by decide) order rfl
  obtain ⟨slices, outcome, last, pauses, -, ends, records⟩ := lasts (by decide)
  exact ⟨carrier, order, ⟨slices, outcome, last, pauses, ends, (records 7 rfl).2⟩,
    by decide +kernel, by decide +kernel, by decide +kernel⟩

end Machine
end HomeBasic
