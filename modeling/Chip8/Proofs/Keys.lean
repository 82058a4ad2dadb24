import Chip8.Proofs.Decode
import Chip8.Proofs.WellFormed

/-!
# Keys

A machine that waits for a key dozes: it may be ticked, its timers may run, keys may be let go of
and held keys pressed once more (`Dozes`), and nothing of that shows but in keys and timers
(`Dozes.eq`). A fresh press wakes it and puts the key into the register that waits. After that a
press reaches no register unless an instruction has asked for a key in between (`Unasked`).

No instruction touches the keys. So after a run (`Machine.run`) a key is held exactly if it was
pressed when it was last pressed or let go of (`keys_of_run`).

> `fresh_press_wakes`: a wait ends with the first fresh press and with none before it, that press
> alone reaches a register, and what a key reads as is its last stroke.
-/

namespace Chip8

namespace Machine

variable {m m' : Machine} {x k : Nibble}

/-! ## Pressing and letting go -/

theorem press_of_held (hheld : m.keys.get k = true) : m.press k.val = .ok (m, false) := by
  have hheld' : m.keys[k.val] = true := hheld
  rw [press, dif_pos k.isLt, if_pos hheld']

theorem press_of_waiting (hfree : m.keys.get k = false) (hwaits : m.waiting = some x) :
    m.press k.val = .ok
      ({ m with
        keys := setNibble m.keys k true
        v := setNibble m.v x k.val.toUInt8
        waiting := none }, true) := by
  have hfree' : ¬ m.keys[k.val] = true := Bool.not_eq_true _ ▸ hfree
  rw [press, dif_pos k.isLt, if_neg hfree']
  dsimp only
  rw [hwaits]
  rfl

theorem press_of_idle (hfree : m.keys.get k = false) (hidle : m.waiting = none) :
    m.press k.val = .ok ({ m with keys := setNibble m.keys k true }, true) := by
  have hfree' : ¬ m.keys[k.val] = true := Bool.not_eq_true _ ▸ hfree
  rw [press, dif_pos k.isLt, if_neg hfree']
  dsimp only
  rw [hidle]
  rfl

theorem press_of_le {key : Nat} (h : 16 ≤ key) : m.press key = .error (.invalidKey key) := by
  rw [press, dif_neg (Nat.not_lt.mpr h)]

theorem release_eq (m : Machine) (k : Nibble) :
    m.release k.val = .ok ({ m with keys := setNibble m.keys k false }, m.keys.get k) := by
  rw [release, dif_pos k.isLt]
  rfl

theorem release_of_le {key : Nat} (h : 16 ≤ key) : m.release key = .error (.invalidKey key) := by
  rw [release, dif_neg (Nat.not_lt.mpr h)]

/-- Whether a press or a release reports a change, it is right. -/
theorem stroke_changes (m : Machine) (k : Nibble) :
    ∃ pressed released, m.press k.val = .ok pressed ∧ m.release k.val = .ok released ∧
      (pressed.2 = true ↔ pressed.1.keys.get k ≠ m.keys.get k) ∧
      (released.2 = true ↔ released.1.keys.get k ≠ m.keys.get k) := by
  have hset (b : Bool) : (setNibble m.keys k b).get k = b := by rw [get_setNibble, if_pos rfl]
  cases hkey : m.keys.get k with
  | true =>
    refine ⟨_, _, press_of_held hkey, m.release_eq k, ?_, ?_⟩
    · simp [hkey]
    · simp [hset, hkey]
  | false =>
    cases hwaits : m.waiting with
    | none =>
      refine ⟨_, _, press_of_idle hkey hwaits, m.release_eq k, ?_, ?_⟩ <;> simp [hset, hkey]
    | some x =>
      refine ⟨_, _, press_of_waiting hkey hwaits, m.release_eq k, ?_, ?_⟩ <;> simp [hset, hkey]

/-- A press of a key that is held or does not exist does nothing. Any other press wakes a machine,
if it waits. -/
theorem apply_press_cases (m : Machine) (key : Nat) :
    (∀ k : Nibble, k.val = key → m.keys.get k = true) ∧ (Request.press key).apply m = m ∨
      ∃ k : Nibble, k.val = key ∧ m.keys.get k = false ∧
        (Request.press key).apply m = { m with
          keys := setNibble m.keys k true
          v := m.waiting.elim m.v fun x => setNibble m.v x k.val.toUInt8
          waiting := none } := by
  rw [Request.apply]
  rcases Nat.lt_or_ge key 16 with hlt | hle
  · obtain ⟨k, rfl⟩ : ∃ k : Nibble, k.val = key := ⟨⟨key, hlt⟩, rfl⟩
    cases hkey : m.keys.get k with
    | true =>
      rw [press_of_held hkey]
      exact .inl ⟨fun k' heq => Fin.ext heq ▸ hkey, rfl⟩
    | false =>
      refine .inr ⟨k, rfl, hkey, ?_⟩
      cases hwaits : m.waiting with
      | none =>
        rw [press_of_idle hkey hwaits]
        change { m with keys := setNibble m.keys k true } =
          { m with keys := setNibble m.keys k true, waiting := none }
        rw [← hwaits]
      | some x =>
        rw [press_of_waiting hkey hwaits]
        rfl
  · rw [press_of_le hle]
    exact .inl ⟨fun k heq => absurd k.isLt (by omega), rfl⟩

/-! ## Waiting -/

/-- What a machine that waits may go through without a fresh press of a key: ticks with any table,
failed or not, ticks of the timers, keys that are let go of, and presses of keys that are held or
do not exist. -/
inductive Dozes (m : Machine) : Machine → Prop where
  | start : Dozes m m
  | tick {m' m'' : Machine} (h : Dozes m m') {table : Table} {noise : UInt8}
    (hleft : (m'.tick table noise).state? = some m'') : Dozes m m''
  | tickTimers {m' : Machine} (h : Dozes m m') : Dozes m (Request.tickTimers.apply m')
  | release {m' : Machine} (h : Dozes m m') (key : Nat) : Dozes m ((Request.release key).apply m')
  | press {m' : Machine} (h : Dozes m m') {key : Nat}
    (hstale : ∀ k : Nibble, k.val = key → m'.keys.get k = true) :
    Dozes m ((Request.press key).apply m')

theorem apply_stale_press {key : Nat} (hstale : ∀ k : Nibble, k.val = key → m.keys.get k = true) :
    (Request.press key).apply m = m := by
  rcases m.apply_press_cases key with ⟨-, hpress⟩ | ⟨k, hk, hfree, -⟩
  · exact hpress
  · exact nomatch (hstale k hk).symm.trans hfree

theorem apply_release (m : Machine) (key : Nat) :
    ∃ keys, (Request.release key).apply m = { m with keys } := by
  rw [Request.apply]
  rcases Nat.lt_or_ge key 16 with hlt | hle
  · rw [m.release_eq ⟨key, hlt⟩]
    exact ⟨_, rfl⟩
  · rw [release_of_le hle]
    exact ⟨m.keys, rfl⟩

/-- Only keys and timers tell that something has happened to a machine that waits. -/
theorem Dozes.eq (h : m.Dozes m') (hwaits : m.waiting = some x) :
    m' = { m with keys := m'.keys, delay := m'.delay, sound := m'.sound } := by
  induction h with
  | start => rfl
  | @tick m₁ _ _ table noise hleft ih =>
    have hwaits' : m₁.waiting ≠ none := by rw [ih]; exact hwaits ▸ nofun
    rw [tick_of_waiting hwaits'] at hleft
    obtain rfl := Option.some.inj hleft
    exact ih
  | tickTimers _ ih =>
    rw [ih]
    rfl
  | @release m₁ _ key ih =>
    obtain ⟨keys, hreleased⟩ := apply_release m₁ key
    rw [hreleased, ih]
  | press _ hstale ih =>
    rw [apply_stale_press hstale]
    exact ih

end Machine

/-! ## Until a key is asked for -/

/-- A handler that makes requests only, or does what an instruction does that does not ask for a
key. -/
def Handler.Unasking (h : Handler) : Prop :=
  h.Courteous ∨ ∃ op : Op, op ≠ .ldVxK ∧ h.execute = op.execute

namespace Machine

variable {m m' : Machine}

/-- Requests and ticks with any table, failed ones included, of which none carries out an
instruction that asks for a key. -/
inductive Unasked (m : Machine) : Machine → Prop where
  | start : Unasked m m
  | request {m' : Machine} (h : Unasked m m') (r : Request) : Unasked m (r.apply m')
  | tick {m' m'' : Machine} (h : Unasked m m') {table : Table} {noise : UInt8}
    (hunasking : ∀ handler ended, m'.Runs table noise handler ended → handler.Unasking)
    (hleft : (m'.tick table noise).state? = some m'') : Unasked m m''

/-- With the standard table only the words of one instruction ask for a key. -/
theorem Runs.unasking {word : UInt16} {noise : UInt8} {h : Handler} {ended : Outcome Machine}
    (hruns : m.Runs Table.standard noise h ended) (hword : m.readWord m.pc = .ok word)
    (hother : Op.ldVxK.pattern.accepts word = false) : h.Unasking := by
  obtain ⟨-, word', hword', hlookup, -⟩ := hruns
  obtain rfl := Except.ok.inj (hword.symm.trans hword')
  obtain ⟨op, rfl⟩ := Table.lookup_standard hlookup
  have hacc := (Table.accepts_of_lookup hlookup).1
  refine .inr ⟨op, fun hasks => ?_, rfl⟩
  rw [hasks, hother] at hacc
  exact nomatch hacc

theorem apply_idle (hidle : m.waiting = none) (r : Request) : (r.apply m).waiting = none := by
  cases r with
  | press key =>
    rcases m.apply_press_cases key with ⟨-, hpress⟩ | ⟨k, -, -, hpress⟩
    · rw [hpress, hidle]
    · rw [hpress]
  | reset => rw [Request.apply, reset, idle]
  | load | release | setV | writeWord | tickTimers =>
    rw [← hidle]
    exact Request.apply_frame m _ (show Part.waiting ∉ _ by simp [Request.owns])

theorem applyAll_idle (hidle : m.waiting = none) (requests : List Request) :
    (Request.applyAll requests m).waiting = none := by
  induction requests generalizing m with
  | nil => exact hidle
  | cons r rest ih => exact ih (apply_idle hidle r)

theorem Runs.idle_after {table : Table} {noise : UInt8} {h : Handler} {ended : Outcome Machine}
    (hruns : m.Runs table noise h ended) (hunasking : h.Unasking) {after : Machine}
    (hafter : ended.state? = some after) : after.waiting = none := by
  obtain ⟨hidle, word, -, -, hrun⟩ := hruns
  rcases hunasking with hcourteous | ⟨op, hother, hexecute⟩
  · obtain ⟨requests, hstate⟩ := hcourteous noise (Operands.ofWord word) (m.withPc (m.pc + 2))
    rw [hrun, hafter] at hstate
    obtain rfl := Option.some.inj hstate
    exact applyAll_idle (m := m.withPc (m.pc + 2)) hidle requests
  · rw [hexecute] at hrun
    cases ended with
    | done state =>
      obtain rfl := Option.some.inj hafter
      have hunowned : Part.waiting ∉ op.owns := by
        revert hother
        cases op <;> decide
      have hsame : state.waiting = m.waiting := Op.execute_frame hrun hunowned
      rw [hsame, hidle]
    | fault f state =>
      obtain rfl := Option.some.inj hafter
      obtain ⟨rfl, -⟩ := Op.execute_fault hrun
      exact hidle
    | crash => exact nomatch hafter

theorem Unasked.idle (h : m.Unasked m') (hidle : m.waiting = none) : m'.waiting = none := by
  induction h with
  | start => exact hidle
  | request _ r ih => exact apply_idle ih r
  | @tick m₁ m₂ _ table noise hunasking hleft ih =>
    have hcase := m₁.tick_case table noise
    generalize m₁.tick table noise = ended at hleft hcase
    cases hcase with
    | waits | unreadable | unknown =>
      obtain rfl := Option.some.inj hleft
      exact ih
    | refused hruns | strays hruns | counts hruns =>
      -- What the tick does after the handler concerns program counter and count alone.
      obtain rfl := Option.some.inj hleft
      have hidle' := hruns.idle_after (hunasking _ _ hruns) rfl
      exact hidle'
    | overflows | crashes => exact nomatch hleft

/-- A press reaches a register only if the machine waits. -/
theorem apply_press_v (hidle : m.waiting = none) (key : Nat) :
    ((Request.press key).apply m).v = m.v := by
  rcases m.apply_press_cases key with ⟨-, hpress⟩ | ⟨k, -, -, hpress⟩
  · rw [hpress]
  · rw [hpress, hidle]
    rfl

end Machine

/-! ## What a key reads as -/

/-- What a machine gets from outside: a request, or a tick with the standard table and the byte
that chance provides. -/
inductive Stimulus where
  | request (r : Request)
  | tick (noise : UInt8)

namespace Stimulus

/-- The machine after a stimulus, if it did not crash. -/
def after? (m : Machine) : Stimulus → Option Machine
  | request r => some (r.apply m)
  | tick noise => (m.tick Table.standard noise).state?

/-- What a stimulus makes of a key, if it presses it or lets go of it. -/
def stroke? (k : Nibble) : Stimulus → Option Bool
  | request (.press key) => if key = k.val then some true else none
  | request (.release key) => if key = k.val then some false else none
  | _ => none

end Stimulus

/-- The presses and releases of a key, in order. -/
def strokes (k : Nibble) (stimuli : List Stimulus) : List Bool :=
  stimuli.filterMap fun s => s.stroke? k

namespace Machine

/-- The machine after some stimuli, one after the other, if it did not crash. -/
def run (m : Machine) : List Stimulus → Option Machine
  | [] => some m
  | s :: rest => (s.after? m).bind fun m' => m'.run rest

variable {m m' last : Machine} {k : Nibble}

theorem keys_of_press (m : Machine) (key : Nat) (k : Nibble) :
    ((Request.press key).apply m).keys.get k = if key = k.val then true else m.keys.get k := by
  rcases m.apply_press_cases key with ⟨hstale, hpress⟩ | ⟨pressed, rfl, -, hpress⟩
  · rw [hpress]
    split
    next heq => exact hstale k heq.symm
    next => rfl
  · rw [hpress]
    refine (get_setNibble _ _ _ _).trans ?_
    simp only [Fin.ext_iff]

theorem keys_of_release (m : Machine) (key : Nat) (k : Nibble) :
    ((Request.release key).apply m).keys.get k = if key = k.val then false else m.keys.get k := by
  rw [Request.apply]
  rcases Nat.lt_or_ge key 16 with hlt | hle
  · rw [m.release_eq ⟨key, hlt⟩]
    refine (get_setNibble _ _ _ _).trans ?_
    simp only [Fin.ext_iff]
  · rw [release_of_le hle, if_neg (by omega)]
    rfl

theorem tick_keys {noise : UInt8} (hleft : (m.tick Table.standard noise).state? = some m') :
    m'.keys = m.keys := by
  rcases tick_standard hleft with rfl | ⟨op, o, after, hrun, pc, cycle, rfl⟩
  · rfl
  · exact Op.execute_frame hrun (show Part.keys ∉ op.owns by cases op <;> decide)

theorem keys_after {s : Stimulus} (h : s.after? m = some m') (k : Nibble) :
    m'.keys.get k = (s.stroke? k).getD (m.keys.get k) := by
  cases s with
  | tick noise =>
    rw [tick_keys h]
    rfl
  | request r =>
    obtain rfl := Option.some.inj h
    cases r with
    | press key =>
      rw [keys_of_press, Stimulus.stroke?]
      split <;> rfl
    | release key =>
      rw [keys_of_release, Stimulus.stroke?]
      split <;> rfl
    | load | reset | setV | writeWord | tickTimers =>
      refine congrArg (fun keys => keys.get k) (?_ : _ = m.keys)
      exact Request.apply_frame m _ (show Part.keys ∉ _ by simp [Request.owns])

/-- After a run a key is what its last stroke made of it. -/
theorem keys_of_run {stimuli : List Stimulus} (h : m.run stimuli = some last) (k : Nibble) :
    last.keys.get k = (strokes k stimuli).getLast?.getD (m.keys.get k) := by
  induction stimuli generalizing m with
  | nil =>
    obtain rfl := Option.some.inj h
    rfl
  | cons s rest ih =>
    obtain ⟨m', hafter, hrest⟩ := Option.bind_eq_some_iff.mp h
    rw [ih hrest, keys_after hafter, strokes, strokes, List.filterMap_cons]
    cases s.stroke? k with
    | none => rfl
    | some b =>
      dsimp only
      rw [List.getLast?_cons]
      rfl

/-! ## One wait, one press -/

/-- What presses and releases of keys do to a machine.

* A machine that waits for a key keeps waiting for it, and nothing changes but keys and timers,
  until a key is freshly pressed: a tick with any table does nothing. A fresh press puts the key
  into the register that waits, and nothing else changes, but that the key is held and the machine
  waits no more. From then on a press reaches no register until an instruction asks for a key.
* After any run with the standard table a key is held if it was pressed when it was last pressed or
  let go of, and if there was no such time, it is as it was.
* A press or release of a key that exists reports a change exactly if there was one. -/
theorem fresh_press_wakes (m : Machine) :
    (∀ x, m.waiting = some x → ∀ dozing, m.Dozes dozing →
      dozing = { m with keys := dozing.keys, delay := dozing.delay, sound := dozing.sound } ∧
      (∀ table noise, dozing.tick table noise = .done dozing) ∧
      ∀ k : Nibble, dozing.keys.get k = false → ∃ woken,
        dozing.press k.val = .ok (woken, true) ∧ woken.waiting = none ∧
        (∀ r, woken.v.get r = if r = x then k.val.toUInt8 else m.v.get r) ∧
        woken = { dozing with
          keys := setNibble dozing.keys k true, v := woken.v, waiting := none } ∧
        ∀ later, woken.Unasked later → ∀ key, ((Request.press key).apply later).v = later.v) ∧
    (∀ stimuli last, m.run stimuli = some last →
      ∀ k, last.keys.get k = (strokes k stimuli).getLast?.getD (m.keys.get k)) ∧
    ∀ k : Nibble, ∃ pressed released,
      m.press k.val = .ok pressed ∧ m.release k.val = .ok released ∧
      (pressed.2 = true ↔ pressed.1.keys.get k ≠ m.keys.get k) ∧
      (released.2 = true ↔ released.1.keys.get k ≠ m.keys.get k) := by
  refine ⟨fun x hwaits dozing hdozes => ?_, fun stimuli last => keys_of_run, m.stroke_changes⟩
  have heq := hdozes.eq hwaits
  have hwaits' : dozing.waiting = some x := by rw [heq, hwaits]
  refine ⟨heq, fun table noise => tick_of_waiting (by rw [hwaits']; exact nofun),
    fun k hfree => ⟨_, press_of_waiting hfree hwaits', rfl, fun r => ?_, rfl, ?_⟩⟩
  · have hv : dozing.v = m.v := by rw [heq]
    dsimp only
    rw [get_setNibble, hv]
    simp only [eq_comm]
  · intro later hrun key
    exact apply_press_v (hrun.idle rfl) key

/-- Key 3 is held while a machine waits and is pressed once more, in vain. Then key 7 ends the wait,
and key 4 reaches no register, neither at once nor after a machine call. After key 7 was let go of,
key 3 alone is held. -/
theorem held_key_is_stale :
    let m : Machine := { (Request.press 3).apply fresh with waiting := some 5 }
    ∃ dozing woken last, m.Dozes dozing ∧ dozing.waiting = some 5 ∧
      dozing.press 7 = .ok (woken, true) ∧ woken.v.get 5 = 7 ∧ woken.waiting = none ∧
      ((Request.press 4).apply woken).v = woken.v ∧
      (∀ later, (woken.tick Table.standard 0).state? = some later →
        ((Request.press 4).apply later).v = later.v) ∧
      m.run [.request (.press 3), .tick 0, .request (.press 7), .request (.release 7)] =
        some last ∧
      last.keys.get 3 = true ∧ last.keys.get 7 = false := by
  intro m
  have hheld : ∀ k : Nibble, k.val = 3 → m.keys.get k = true := by
    intro k hk
    obtain rfl : k = 3 := Fin.ext hk
    decide +kernel
  have hfree : m.keys.get 7 = false := by decide +kernel
  obtain ⟨hwait, hkeys, -⟩ := fresh_press_wakes m
  have hdozes : m.Dozes m := by
    have hpressed := Dozes.start.press hheld
    rwa [apply_stale_press hheld] at hpressed
  obtain ⟨-, htick, hpress⟩ := hwait 5 rfl m hdozes
  obtain ⟨woken, hpressed, hidle, hv, heq, hlater⟩ := hpress 7 hfree
  have hwoken : m.press 7 = .ok (woken, true) := hpressed
  have hrun : m.run [.request (.press 3), .tick 0, .request (.press 7), .request (.release 7)] =
      some ((Request.release 7).apply woken) := by
    have hfirst : (Request.press 3).apply m = m := apply_stale_press hheld
    have hsecond : (m.tick Table.standard 0).state? = some m :=
      congrArg Outcome.state? (htick Table.standard 0)
    have hthird : (Request.press 7).apply m = woken := by
      rw [Request.apply, hwoken]
      rfl
    rw [run, Stimulus.after?, hfirst, Option.bind_some, run, Stimulus.after?, hsecond,
      Option.bind_some, run, Stimulus.after?, hthird]
    rfl
  have hword : woken.readWord woken.pc = .ok 0 := by
    have hfetched : m.readWord m.pc = .ok 0 := by decide +kernel
    have hmemory : woken.memory = m.memory := by rw [heq]
    have hpc : woken.pc = m.pc := by rw [heq]
    rwa [readWord, hmemory, hpc]
  refine ⟨m, woken, _, hdozes, rfl, hwoken, hv 5, hidle, hlater woken .start 4,
    fun later hleft => ?_, hrun, ?_, ?_⟩
  · refine hlater later (Unasked.start.tick (fun _ _ hruns => ?_) hleft) 4
    exact hruns.unasking hword (by decide)
  · exact (hkeys _ _ hrun 3).trans (hheld 3 rfl)
  · exact hkeys _ _ hrun 7

end Machine

end Chip8
