/-
Module: Os88.MiniOs.Screen
Purpose: Drawing in the frame buffer: `setpixel`, `fillrect` and `drawtext` of
  kernel_main.c.
Trusted boundary: the frame buffer is memory of its own.  Overflow of the
  cursor's two `int` coordinates is not modelled.
Main exports: Screen, setpixel, fillrect, textarray, drawtext
-/
import Os88.Library.Execution

namespace Os88.MiniOs

open Execution

/-- The cursor `width`, `height` and the bytes from `video` on. -/
structure Screen where
  width : Int
  height : Int
  video : BitVec 32 → BitVec 8

/-- The four bytes of one pixel. -/
def colorAt (offset : BitVec 32) (b g r : Int) (video : BitVec 32 → BitVec 8) :
    BitVec 32 → BitVec 8 :=
  fun position =>
    if position = offset then BitVec.ofInt 8 b
    else if position = offset + 1#32 then BitVec.ofInt 8 g
    else if position = offset + 2#32 then BitVec.ofInt 8 r
    else if position = offset + 3#32 then 0#8
    else video position

/-- `(x + y * 1280) * 4` as an `unsigned int` -/
def pixelOffset (x y : Int) : BitVec 32 :=
  BitVec.ofInt 32 ((x + y * 1280) * 4)

def setpixel (x y b g r : Int) (s : Screen) : Screen :=
  { s with video := colorAt (pixelOffset x y) b g r s.video }

/-- The loops of `fillrect` carry the offset of the row. -/
def fillrect (x y w h b g r : Int) (s : Screen) : Screen :=
  let row := fun (offset : BitVec 32) (video : BitVec 32 → BitVec 8) =>
    (List.range w.toNat).foldl
      (fun video j => colorAt (offset + BitVec.ofNat 32 (j * 4)) b g r video) video
  let filled := (List.range h.toNat).foldl
    (fun (offset, video) _ => (offset + 5120#32, row offset video))
    (pixelOffset x y, s.video)
  { s with video := filled.2 }

/-- The array `textarray` without its last byte, which is 0: the eight rows of
each character, the first one in the highest byte. -/
def glyphs : List (BitVec 64) :=
  [ 0x0000000000000000, 0x7E81A581BD99817E, 0x7EFFDBFFC3E7FF7E,
    0x6CFEFEFE7C381000, 0x10387CFE7C381000, 0x387C38FEFED61038,
    0x1010387CFE7C1038, 0x0000183C3C180000, 0xFFFFE7C3C3E7FFFF,
    0x003C664242663C00, 0xFFC399BDBD99C3FF, 0x0F070F7DCCCCCC78,
    0x3C6666663C187E18, 0x3F333F303070F0E0, 0x7F637F636367E6C0,
    0x18DB3CE7E73CDB18, 0x80E0F8FEF8E08000, 0x020E3EFE3E0E0200,
    0x183C7E18187E3C18, 0x6666666666006600, 0x7FDBDB7B1B1B1B00,
    0x3E63386C6C38CC78, 0x000000007E7E7E00, 0x183C7E187E3C18FF,
    0x183C7E1818181800, 0x181818187E3C1800, 0x00180CFE0C180000,
    0x003060FE60300000, 0x0000C0C0C0FE0000, 0x002466FF66240000,
    0x00183C7EFFFF0000, 0x00FFFF7E3C180000, 0x0000000000000000,
    0x3078783030003000, 0x6C6C6C0000000000, 0x6C6CFE6CFE6C6C00,
    0x307CC0780CF83000, 0x00C6CC183066C600, 0x386C3876DCCC7600,
    0x6060C00000000000, 0x1830606060301800, 0x6030181818306000,
    0x00663CFF3C660000, 0x003030FC30300000, 0x0000000000303060,
    0x000000FC00000000, 0x0000000000303000, 0x060C183060C08000,
    0x7CC6CEDEF6E67C00, 0x307030303030FC00, 0x78CC0C3860CCFC00,
    0x78CC0C380CCC7800, 0x1C3C6CCCFE0C1E00, 0xFCC0F80C0CCC7800,
    0x3860C0F8CCCC7800, 0xFCCC0C1830303000, 0x78CCCC78CCCC7800,
    0x78CCCC7C0C187000, 0x0030300000303000, 0x0030300000303060,
    0x183060C060301800, 0x0000FC0000FC0000, 0x6030180C18306000,
    0x78CC0C1830003000, 0x7CC6DEDEDEC07800, 0x3078CCCCFCCCCC00,
    0xFC66667C6666FC00, 0x3C66C0C0C0663C00, 0xF86C6666666CF800,
    0xFE6268786862FE00, 0xFE6268786860F000, 0x3C66C0C0CE663E00,
    0xCCCCCCFCCCCCCC00, 0x7830303030307800, 0x1E0C0C0CCCCC7800,
    0xE6666C786C66E600, 0xF06060606266FE00, 0xC6EEFEFED6C6C600,
    0xC6E6F6DECEC6C600, 0x386CC6C6C66C3800, 0xFC66667C6060F000,
    0x78CCCCCCDC781C00, 0xFC66667C6C66E600, 0x78CC603018CC7800,
    0xFCB4303030307800, 0xCCCCCCCCCCCCFC00, 0xCCCCCCCCCC783000,
    0xC6C6C6D6FEEEC600, 0xC6C66C38386CC600, 0xCCCCCC7830307800,
    0xFEC68C183266FE00, 0x7860606060607800, 0xC06030180C060200,
    0x7818181818187800, 0x10386CC600000000, 0x00000000000000FF,
    0x3030180000000000, 0x0000780C7CCC7600, 0xE060607C6666DC00,
    0x000078CCC0CC7800, 0x1C0C0C7CCCCC7600, 0x000078CCFCC07800,
    0x386C60F06060F000, 0x000076CCCC7C0CF8, 0xE0606C766666E600,
    0x3000703030307800, 0x0C000C0C0CCCCC78, 0xE060666C786CE600,
    0x7030303030307800, 0x0000CCFEFED6C600, 0x0000F8CCCCCCCC00,
    0x000078CCCCCC7800, 0x0000DC66667C60F0, 0x000076CCCC7C0C1E,
    0x0000DC766660F000, 0x00007CC0780CF800, 0x10307C3030341800,
    0x0000CCCCCCCC7600, 0x0000CCCCCC783000, 0x0000C6D6FEFE6C00,
    0x0000C66C386CC600, 0x0000CCCCCC7C0CF8, 0x0000FC983064FC00,
    0x1C3030E030301C00, 0x1818180018181800, 0xE030301C3030E000,
    0x76DC000000000000, 0x0010386CC6C6FE00, 0x78CCC0CC78180C78,
    0x00CC00CCCCCC7E00, 0x1C0078CCFCC07800, 0x7EC33C063E663F00,
    0xCC00780C7CCC7E00, 0xE000780C7CCC7E00, 0x3030780C7CCC7E00,
    0x000078C0C0780C38, 0x7EC33C667E603C00, 0xCC0078CCFCC07800,
    0xE00078CCFCC07800, 0xCC00703030307800, 0x7CC6381818183C00,
    0xE000703030307800, 0xC6386CC6FEC6C600, 0x30300078CCFCCC00,
    0x1C00FC607860FC00, 0x00007F0C7FCC7F00, 0x3E6CCCFECCCCCE00,
    0x78CC0078CCCC7800, 0x00CC0078CCCC7800, 0x00E00078CCCC7800,
    0x78CC00CCCCCC7E00, 0x00E000CCCCCC7E00, 0x00CC00CCCC7C0CF8,
    0xC3183C66663C1800, 0xCC00CCCCCCCC7800, 0x18187EC0C07E1818,
    0x386C64F060E6FC00, 0xCCCC78FC30FC3030, 0xF8CCCCFAC6CFC6C7,
    0x0E1B183C1818D870, 0x1C00780C7CCC7E00, 0x3800703030307800,
    0x001C0078CCCC7800, 0x001C00CCCCCC7E00, 0x00F800F8CCCCCC00,
    0xFC00CCECFCDCCC00, 0x3C6C6C3E007E0000, 0x386C6C38007C0000,
    0x30003060C0CC7800, 0x000000FCC0C00000, 0x000000FC0C0C0000,
    0xC3C6CCDE3366CC0F, 0xC3C6CCDB376FCF03, 0x1818001818181800,
    0x003366CC66330000, 0x00CC663366CC0000, 0x2288228822882288,
    0x55AA55AA55AA55AA, 0xDB77DBEEDB77DBEE, 0x1818181818181818,
    0x18181818F8181818, 0x1818F818F8181818, 0x36363636F6363636,
    0x00000000FE363636, 0x0000F818F8181818, 0x3636F606F6363636,
    0x3636363636363636, 0x0000FE06F6363636, 0x3636F606FE000000,
    0x36363636FE000000, 0x1818F818F8000000, 0x00000000F8181818,
    0x181818181F000000, 0x18181818FF000000, 0x00000000FF181818,
    0x181818181F181818, 0x00000000FF000000, 0x18181818FF181818,
    0x18181F181F181818, 0x3636363637363636, 0x363637303F000000,
    0x00003F3037363636, 0x3636F700FF000000, 0x0000FF00F7363636,
    0x3636373037363636, 0x0000FF00FF000000, 0x3636F700F7363636,
    0x1818FF00FF000000, 0x36363636FF000000, 0x0000FF00FF181818,
    0x00000000FF363636, 0x363636363F000000, 0x18181F181F000000,
    0x00001F181F181818, 0x000000003F363636, 0x36363636FF363636,
    0x1818FF18FF181818, 0x18181818F8000000, 0x000000001F181818,
    0xFFFFFFFFFFFFFFFF, 0x00000000FFFFFFFF, 0xF0F0F0F0F0F0F0F0,
    0x0F0F0F0F0F0F0F0F, 0xFFFFFFFF00000000, 0x000076DCC8DC7600,
    0x0078CCF8CCF8C0C0, 0x00FCCCC0C0C0C000, 0x00FE6C6C6C6C6C00,
    0xFCCC603060CCFC00, 0x00007ED8D8D87000, 0x00666666667C60C0,
    0x0076DC1818181800, 0xFC3078CCCC7830FC, 0x386CC6FEC66C3800,
    0x386CC6C66C6CEE00, 0x1C30187CCCCC7800, 0x00007EDBDB7E0000,
    0x060C7EDBDB7E60C0, 0x3860C0F8C0603800, 0x78CCCCCCCCCCCC00,
    0x00FC00FC00FC0000, 0x3030FC303000FC00, 0x603018306000FC00,
    0x183060301800FC00, 0x0E1B1B1818181818, 0x1818181818D8D870,
    0x303000FC00303000, 0x0076DC0076DC0000, 0x386C6C3800000000,
    0x0000001818000000, 0x0000000018000000, 0x0F0C0C0CEC6C3C1C,
    0x786C6C6C6C000000, 0x7018306078000000, 0x00003C3C3C3C0000,
    0x0000000000000000, 0xFFFFFFFFFFFFFFFF ]

def textarray (position : Int) : Option (BitVec 8) :=
  if 0 ≤ position ∧ position < 2057 then
    let glyph := glyphs.getD (position.toNat / 8) 0#64
    some ((glyph >>> (8 * (7 - position.toNat % 8))).setWidth 8)
  else none

/-- The four pixels of bit `i` in row `k` of a character. -/
def drawDot (i k : Nat) (s : Screen) : Screen :=
  [2 * (8 - i), 2 * (8 - i) + 1].foldl
    (fun s w => [2 * k, 2 * k + 1].foldl
      (fun s h => setpixel (w + s.width) (h + s.height) 255 255 255 s) s) s

/-- The two tests at the start of `drawtext`. -/
def wrapCursor (s : Screen) : Screen :=
  let s := if 1260 < s.width then { s with width := 0, height := s.height + 16 } else s
  if s.width < -2 ∧ 34 < s.height then
    { s with width := 1250, height := s.height - 16 }
  else s

/-- `drawtext(-1)` -/
def eraseCell (s : Screen) : Screen :=
  let s := wrapCursor s
  let s := fillrect s.width s.height 16 16 0 0 0 s
  { s with width := s.width + 16 }

/-- One pass of the loop over the columns. -/
def drawColumn (charnum : Int) (k i : Nat) (s : Screen) : Option Screen := do
  let row ← textarray (charnum * 8 + k)
  if row &&& (1#8 <<< i) ≠ 0#8 then return drawDot i k s else return s

/-- The branch of `drawtext` for characters without a meaning of their own. -/
def drawGlyph (charnum : Int) (s : Screen) : Option Screen := do
  let s ← countLoop (fun k => countLoop (drawColumn charnum k) 0 8) 0 8 s
  return { s with width := s.width + 16 }

def drawtext (charnum : Int) (s : Screen) : Option Screen :=
  if charnum = -1 then some (eraseCell s)
  else
    let s := wrapCursor s
    if charnum = 10 then
      let s := eraseCell s
      some { s with width := 0, height := s.height + 16 }
    else if charnum = 8 then
      let s := eraseCell s
      let s := eraseCell (eraseCell { s with width := s.width - 32 })
      some { s with width := s.width - 32 }
    else drawGlyph charnum s

theorem textarray_total {position : Int} (first : 0 ≤ position)
    (last : position < 2057) : ∃ row, textarray position = some row :=
  ⟨_, if_pos ⟨first, last⟩⟩

section Total

variable {charnum : Int} {k : Nat}

theorem drawColumn_total (first : 0 ≤ charnum) (last : charnum < 257)
    (inside : k < 8) (i : Nat) (s : Screen) :
    ∃ s', drawColumn charnum k i s = some s' := by
  obtain ⟨row, read⟩ :=
    @textarray_total (charnum * 8 + k) (by omega) (by omega)
  by_cases lit : row &&& (1#8 <<< i) ≠ 0#8
  · exact ⟨drawDot i k s, by simp [drawColumn, read, lit]⟩
  · exact ⟨s, by simp_all [drawColumn]⟩

theorem drawGlyph_total (first : 0 ≤ charnum) (last : charnum < 257)
    (s : Screen) : ∃ s', drawGlyph charnum s = some s' := by
  have rows : ∃ s', countLoop (fun k => countLoop (drawColumn charnum k) 0 8)
      0 8 s = some s' ∧ True := by
    apply countLoop_rule (fun _ _ => True) trivial
    intro k s _ inside _
    obtain ⟨s', ran⟩ := countLoop_total
      (fun i s => drawColumn_total first last (by omega : k < 8) i s) 0 8 s
    exact ⟨s', ran, trivial⟩
  rcases rows with ⟨s', ran, -⟩
  exact ⟨_, by rw [drawGlyph, ran]; rfl⟩

/-- The characters of the table are drawn without a fault. -/
theorem drawtext_total (first : 0 ≤ charnum) (last : charnum < 257)
    (s : Screen) : ∃ s', drawtext charnum s = some s' := by
  unfold drawtext
  by_cases erased : charnum = -1
  · exact ⟨_, if_pos erased⟩
  · by_cases newline : charnum = 10
    · exact ⟨_, by rw [if_neg erased, if_pos newline]⟩
    · by_cases backspace : charnum = 8
      · exact ⟨_, by rw [if_neg erased, if_neg newline, if_pos backspace]⟩
      · rcases drawGlyph_total first last (wrapCursor s) with ⟨s', drawn⟩
        exact ⟨s', by rw [if_neg erased, if_neg newline, if_neg backspace, drawn]⟩

end Total

end Os88.MiniOs
