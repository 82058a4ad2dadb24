import Chip8.Proofs.Drawing
import Chip8.Proofs.Execute

/-!
# The drawing instruction

The instruction draws what is in memory where the index register points, byte by byte around the
end of memory, in a shape that depends on the mode (`spriteRows`, `spriteRowBytes`). `Covers` says
which pixels that are, in terms of registers and memory alone, and `covers_iff` that they are those
that the sprite hits. Fifteen rows of one byte and sixteen rows of two are no larger than the screen
they are for, so the general law of drawing becomes a simple one:

> `draw_instruction`: what is covered is turned over, and register `F` tells whether a pixel went
> off. Where `F` is not one of the two coordinates, the instruction carried out again takes the
> sprite away.
-/

namespace Chip8

theorem Memory.getElem?_bytes (m : Memory) (a count k : Nat) :
    (m.bytes a count)[k]? = if k < count then some (m.peek (a + k)) else none := by
  unfold bytes
  rw [List.getElem?_map]
  split
  next hk => rw [List.getElem?_range hk, Option.map_some]
  next hk => rw [List.getElem?_eq_none (by simpa using hk), Option.map_none]

theorem Sprite.ne_zero_iff_testBit (b : UInt8) :
    b ≠ 0 ↔ ∃ bit < 8, b.toNat.testBit (7 - bit) = true := by
  rw [ne_eq, ← setBits_eq_nil_iff, setBits, List.filter_eq_nil_iff]
  simp

namespace Machine

variable {m m' : Machine} {n : UInt8}

/-! ## The sprite in memory -/

/-- The rows of the sprite that a number stands for. None means sixteen on the large screen. -/
def spriteRows (mode : ScreenMode) (n : UInt8) : Nat :=
  if n = 0 ∧ mode = .extended then 16 else n.toNat

/-- The bytes in each of these rows. -/
def spriteRowBytes (mode : ScreenMode) (n : UInt8) : Nat :=
  if n = 0 ∧ mode = .extended then 2 else 1

/-- The byte with number `k` from where the index register points, around the end of memory. -/
def byteAtI (m : Machine) (k : Nat) : UInt8 := m.memory.peek ((m.i.toNat + k) % 4096)

theorem spriteAtI_stride (m : Machine) (n : UInt8) :
    (m.spriteAtI n).stride = spriteRowBytes m.screen.mode n := by
  unfold spriteAtI spriteRowBytes Sprite.stride
  split <;> rfl

theorem spriteAtI_bytes (m : Machine) (n : UInt8) :
    (m.spriteAtI n).bytes =
      m.memory.bytes m.i.toNat (spriteRows m.screen.mode n * spriteRowBytes m.screen.mode n) := by
  unfold spriteAtI spriteRows spriteRowBytes
  split
  · rfl
  · rw [Nat.mul_one]

/-- Byte `col` of row `line` is one of the bytes of `rows` rows. -/
theorem byte_lt {rows rowBytes line col : Nat} (hline : line < rows) (hcol : col < rowBytes) :
    rowBytes * line + col < rows * rowBytes := by
  have hle : rowBytes * (line + 1) ≤ rowBytes * rows := Nat.mul_le_mul_left _ hline
  rw [Nat.mul_succ, Nat.mul_comm rowBytes rows] at hle
  omega

theorem spriteRowBytes_pos (mode : ScreenMode) (n : UInt8) : 0 < spriteRowBytes mode n := by
  unfold spriteRowBytes
  split <;> decide

theorem hasBit_spriteAtI {line col bit : Nat} :
    (m.spriteAtI n).hasBit line col bit = true ↔
      line < spriteRows m.screen.mode n ∧ col < spriteRowBytes m.screen.mode n ∧ bit < 8 ∧
        (m.byteAtI (spriteRowBytes m.screen.mode n * line + col)).toNat.testBit (7 - bit) =
          true := by
  rw [Sprite.hasBit_iff, spriteAtI_stride, spriteAtI_bytes, Memory.getElem?_bytes,
    ← Memory.peek_mod]
  generalize spriteRows m.screen.mode n = rows
  generalize spriteRowBytes m.screen.mode n = rowBytes
  constructor
  · rintro ⟨hcol, hbit, b, hb, hset⟩
    rw [Option.ite_none_right_eq_some, Option.some_inj] at hb
    obtain ⟨hlt, rfl⟩ := hb
    refine ⟨?_, hcol, hbit, hset⟩
    have hle : rowBytes * line < rowBytes * rows := by
      rw [Nat.mul_comm rowBytes rows]
      omega
    exact Nat.lt_of_mul_lt_mul_left hle
  · rintro ⟨hline, hcol, hbit, hset⟩
    exact ⟨hcol, hbit, _, if_pos (byte_lt hline hcol), hset⟩

/-- The sprite has a set bit if one of its bytes is not zero. -/
theorem exists_hasBit_spriteAtI :
    (∃ line col bit, (m.spriteAtI n).hasBit line col bit = true) ↔
      ∃ k < spriteRows m.screen.mode n * spriteRowBytes m.screen.mode n, m.byteAtI k ≠ 0 := by
  simp only [hasBit_spriteAtI]
  have hpos := spriteRowBytes_pos m.screen.mode n
  generalize spriteRows m.screen.mode n = rows
  generalize spriteRowBytes m.screen.mode n = rowBytes at hpos ⊢
  constructor
  · rintro ⟨line, col, bit, hline, hcol, hbit, hset⟩
    exact ⟨rowBytes * line + col, byte_lt hline hcol,
      (Sprite.ne_zero_iff_testBit _).mpr ⟨bit, hbit, hset⟩⟩
  · rintro ⟨k, hk, hne⟩
    obtain ⟨bit, hbit, hset⟩ := (Sprite.ne_zero_iff_testBit _).mp hne
    refine ⟨k / rowBytes, k % rowBytes, bit, ?_, Nat.mod_lt _ hpos, hbit, ?_⟩
    · rwa [Nat.div_lt_iff_lt_mul hpos]
    · rwa [Nat.div_add_mod]

/-! ## What it covers -/

/-- Whether some set bit of the sprite is above a pixel, with the corner where the registers `x`
and `y` say and around both edges of the mode. -/
def Covers (m : Machine) (o : Operands) (px py : Nat) : Prop :=
  ∃ line < spriteRows m.screen.mode o.n, ∃ col < spriteRowBytes m.screen.mode o.n, ∃ bit < 8,
    (m.byteAtI (spriteRowBytes m.screen.mode o.n * line + col)).toNat.testBit (7 - bit) = true ∧
      ((m.reg o.x).toNat + 8 * col + bit) % m.screen.width = px ∧
      ((m.reg o.y).toNat + line) % m.screen.height = py

theorem covers_iff {o : Operands} {px py : Nat} :
    m.Covers o px py ↔
      0 < (m.spriteAtI o.n).hits m.screen.mode (m.reg o.x).toNat (m.reg o.y).toNat px py := by
  rw [Sprite.hits, Finset.card_pos]
  constructor
  · rintro ⟨line, hline, col, hcol, bit, hbit, hset, hland⟩
    refine ⟨(line, col, bit), Sprite.mem_landing.mpr ⟨?_, hland⟩⟩
    exact hasBit_spriteAtI.mpr ⟨hline, hcol, hbit, hset⟩
  · rintro ⟨⟨line, col, bit⟩, hmem⟩
    obtain ⟨hbit, hland⟩ := Sprite.mem_landing.mp hmem
    obtain ⟨hline, hcol, hbit, hset⟩ := hasBit_spriteAtI.mp hbit
    exact ⟨line, hline, col, hcol, bit, hbit, hset, hland⟩

theorem spriteAtI_rows_le (m : Machine) (hn : n < 16) :
    (m.spriteAtI n).rows ≤ m.screen.height :=
  Nat.le_trans (Sprite.rows_le _) (m.spriteAtI_fits hn).2

/-! ## Once and twice -/

/-- What the instruction draws on the screen. -/
def drawing (m : Machine) (o : Operands) : Screen × Bool :=
  m.screen.draw (m.reg o.x).toNat (m.reg o.y).toNat (m.spriteAtI o.n)

/-- The machine after the instruction. -/
def drawn (m : Machine) (o : Operands) : Machine :=
  { m with screen := (m.drawing o).1 }.withReg 15 (m.drawing o).2.toUInt8

theorem execute_draw (noise : UInt8) (o : Operands) (m : Machine) :
    Op.drwVxVyN.execute noise o m = .done (m.drawn o) := m.draw_eq o.x o.y o.n

theorem drawn_flag (m : Machine) (o : Operands) : (m.drawn o).reg 15 = (m.drawing o).2.toUInt8 :=
  (get_setNibble ..).trans (if_pos rfl)

theorem drawn_reg {r : Nibble} (hr : r ≠ 15) (m : Machine) (o : Operands) :
    (m.drawn o).reg r = m.reg r := (get_setNibble ..).trans (if_neg hr.symm)

theorem drawn_mode (m : Machine) (o : Operands) : (m.drawn o).screen.mode = m.screen.mode :=
  Screen.mode_draw ..

/-- The sprite does not depend on what is drawn. -/
theorem drawn_spriteAtI (m : Machine) (o : Operands) (n : UInt8) :
    (m.drawn o).spriteAtI n = m.spriteAtI n := by
  unfold spriteAtI
  rw [drawn_mode]
  rfl

/-- Nor do the coordinates, if neither is in the register that tells of a hit. -/
theorem drawing_drawn {o : Operands} (hx : o.x ≠ 15) (hy : o.y ≠ 15) (m : Machine) :
    (m.drawn o).drawing o =
      (m.drawing o).1.draw (m.reg o.x).toNat (m.reg o.y).toNat (m.spriteAtI o.n) := by
  rw [drawing, drawn_spriteAtI, drawn_reg hx, drawn_reg hy]
  rfl

theorem toUInt8_eq_one_iff (b : Bool) : b.toUInt8 = 1 ↔ b = true := by
  cases b <;> decide

theorem toUInt8_eq_zero_iff (b : Bool) : b.toUInt8 = 0 ↔ ¬ b = true := by
  cases b <;> decide

theorem drawn_twice_flag {o : Operands} (hx : o.x ≠ 15) (hy : o.y ≠ 15) (hn : o.n < 16) :
    (m.drawn o).reg 15 = 1 ∨ ((m.drawn o).drawn o).reg 15 = 1 ↔
      ∃ k < spriteRows m.screen.mode o.n * spriteRowBytes m.screen.mode o.n, m.byteAtI k ≠ 0 := by
  rw [drawn_flag, drawn_flag, toUInt8_eq_one_iff, toUInt8_eq_one_iff, drawing_drawn hx hy,
    ← exists_hasBit_spriteAtI]
  exact Screen.hit_draw_twice (m.spriteAtI_fits hn).1 (m.spriteAtI_rows_le hn)

/-- The drawing instruction never fails. It turns over the pixels that the sprite covers and keeps
all others, as well as the cells that the mode does not use. Register `F` becomes 1 if a lit pixel
is off afterwards, and 0 if there is none. Nothing else changes.

If neither coordinate is in register `F`, the instruction carried out a second time leaves the
screen as it was at first, and one of the two times `F` becomes 1, unless all bytes of the sprite
are zero. -/
theorem draw_instruction (m : Machine) (noise noise' : UInt8) (o : Operands) (hn : o.n < 16) :
    ∃ m' : Machine, Op.drwVxVyN.execute noise o m = .done m' ∧
      (∀ px < m.screen.width, ∀ py < m.screen.height,
        (m.Covers o px py → m'.screen.get px py = !m.screen.get px py) ∧
          (¬ m.Covers o px py → m'.screen.get px py = m.screen.get px py)) ∧
      (∀ i, m.screen.area ≤ i → i < 8192 → m'.screen.cell i = m.screen.cell i) ∧
      m'.screen.mode = m.screen.mode ∧
      ((∃ px py, m.screen.get px py = true ∧ m'.screen.get px py = false) → m'.reg 15 = 1) ∧
      ((¬ ∃ px py, m.screen.get px py = true ∧ m'.screen.get px py = false) → m'.reg 15 = 0) ∧
      (∀ r, r ≠ 15 → m'.reg r = m.reg r) ∧ m' = { m with screen := m'.screen, v := m'.v } ∧
      (o.x ≠ 15 → o.y ≠ 15 → ∃ m'' : Machine,
        Op.drwVxVyN.execute noise' o m' = .done m'' ∧ m''.screen = m.screen ∧
          (m'.reg 15 = 1 ∨ m''.reg 15 = 1 ↔
            ∃ k < spriteRows m.screen.mode o.n * spriteRowBytes m.screen.mode o.n,
              m.byteAtI k ≠ 0)) := by
  obtain ⟨hwidth, -⟩ := m.spriteAtI_fits hn
  have hheight := m.spriteAtI_rows_le hn
  have hhit : (m.drawing o).2 = true ↔ ∃ px py, m.screen.get px py = true ∧
      (m.drawn o).screen.get px py = false := Screen.hit_draw_of_fits hwidth hheight
  refine ⟨m.drawn o, execute_draw noise o m, fun px hx py hy => ?_, fun i hi _ =>
    Screen.cell_draw_of_area_le _ _ _ _ hi, m.drawn_mode o, fun hoff => ?_, fun hoff => ?_,
    fun r hr => drawn_reg hr m o, rfl, fun hx hy => ?_⟩
  · have hget : (m.drawn o).screen.get px py = _ :=
      Screen.get_draw_of_fits hwidth hheight hx hy
    rw [hget, covers_iff]
    refine ⟨fun hcovers => ?_, fun hfree => ?_⟩
    · rw [decide_eq_true hcovers, Bool.xor_true]
    · rw [decide_eq_false hfree, Bool.xor_false]
  · rw [drawn_flag, toUInt8_eq_one_iff, hhit]
    exact hoff
  · rw [drawn_flag, toUInt8_eq_zero_iff, hhit]
    exact hoff
  · refine ⟨(m.drawn o).drawn o, execute_draw noise' o _, ?_, drawn_twice_flag hx hy hn⟩
    show ((m.drawn o).drawing o).1 = m.screen
    rw [drawing_drawn hx hy]
    exact Screen.draw_draw ..

/-- Two rows from the last byte of memory on, with the corner near the corner of the screen. The
second row is the first byte of memory and comes to lie in the first row of the screen, half of it
at the left edge. The second time it is gone. -/
theorem sprite_around_corner :
    let m : Machine := { fresh with i := 0xfff, v := setNibble (setNibble fresh.v 0 62) 1 31 }
    let o : Operands := { x := 0, y := 1, n := 2 }
    o.n < 16 ∧ ∃ m' m'' : Machine, Op.drwVxVyN.execute 0 o m = .done m' ∧
      m'.screen.get 1 0 = true ∧ Op.drwVxVyN.execute 0 o m' = .done m'' ∧
      m''.screen = m.screen ∧ (m'.reg 15 = 1 ∨ m''.reg 15 = 1) := by
  intro m o
  have hn : o.n < 16 := by decide
  have hbyte : m.byteAtI 1 = 0xf0 := by decide +kernel
  obtain ⟨m', hdraw, hpixel, -, -, -, -, -, -, htwice⟩ := draw_instruction m 0 0 o hn
  obtain ⟨m'', hdraw', hscreen, hflag⟩ := htwice (by decide) (by decide)
  have hcovers : m.Covers o 1 0 := by
    refine ⟨1, by decide, 0, by decide, 3, by decide, ?_, by decide, by decide⟩
    show (m.byteAtI 1).toNat.testBit 4 = true
    rw [hbyte]
    decide
  have hdark : m.screen.get 1 0 = false := Screen.blank_dark .standard 1 0
  refine ⟨hn, m', m'', hdraw, ?_, hdraw', hscreen, hflag.mpr ⟨1, by decide, ?_⟩⟩
  · rw [(hpixel 1 (by decide) 0 (by decide)).1 hcovers, hdark]
    rfl
  · rw [hbyte]
    decide

end Machine

end Chip8
