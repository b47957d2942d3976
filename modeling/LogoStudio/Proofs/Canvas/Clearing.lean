import LogoStudio.Proofs.Report.Channels

/-!
# Clearing a canvas

A canvas is cleared in the middle of a list of commands. What was drawn before is gone then,
but what was said about the brush still holds: the colours, the opacity, the font, the
alignment and the transform go on as they were set. So of the commands before a clear only
those count that set the brush, and a brush is changed by nothing else.
-/
namespace LogoStudio

/-- Whether a command sets the brush; all others draw. -/
def CanvasCommand.isSetter : CanvasCommand → Bool
  | .setLineColor _ | .setFillColor _ | .setOpacity _ | .setFont _ | .setTextAlign _
  | .transform _ | .resetTransform => true
  | .clear | .fillRect .. | .frameRect .. | .fillEllipse .. | .frameEllipse .. | .line ..
  | .text .. | .setPixel .. => false

/-- Drawing does not change the brush, also where a pixel is set in a colour of its own. -/
lemma Brush.change_of_draws (b : Brush) {command : CanvasCommand}
    (h : command.isSetter = false) : b.change command = b := by
  cases command <;> first | rfl | cases h

/-- Setting the brush leaves no mark. -/
lemma CanvasCommand.draw_of_sets (b : Brush) (r : Raster) {command : CanvasCommand}
    (h : command.isSetter = true) : command.draw b r = r := by
  cases command <;> first | rfl | cases h

/-- The brush after some commands depends on the setters among them alone. -/
lemma brush_foldl_apply (commands : List CanvasCommand) (c : Canvas) :
    (commands.foldl Canvas.apply c).brush =
      (commands.filter CanvasCommand.isSetter).foldl Brush.change c.brush := by
  induction commands generalizing c with
  | nil => rfl
  | cons command rest ih =>
      rw [List.foldl_cons, ih, Canvas.brush_apply]
      cases hkind : command.isSetter with
      | true => rw [List.filter_cons_of_pos hkind, List.foldl_cons]
      | false => rw [List.filter_cons_of_neg (by simp [hkind]), Brush.change_of_draws _ hkind]

/-- Setters alone leave the raster as it is. -/
lemma raster_foldl_apply_setters (commands : List CanvasCommand) (c : Canvas) :
    ((commands.filter CanvasCommand.isSetter).foldl Canvas.apply c).raster = c.raster := by
  induction commands generalizing c with
  | nil => rfl
  | cons command rest ih =>
      cases hkind : command.isSetter with
      | true =>
          rw [List.filter_cons_of_pos hkind, List.foldl_cons, ih, Canvas.raster_apply,
            CanvasCommand.draw_of_sets _ _ hkind]
      | false => rw [List.filter_cons_of_neg (by simp [hkind]), ih]

/-- A canvas that is cleared after some commands: the setters among them on a blank raster. -/
lemma apply_clear_foldl_apply (commands : List CanvasCommand) (c : Canvas) :
    (commands.foldl Canvas.apply c).apply .clear =
      (commands.filter CanvasCommand.isSetter).foldl Canvas.apply
        ⟨c.brush, .blank c.raster.width c.raster.height⟩ := by
  let drawn := commands.foldl Canvas.apply c
  let set := (commands.filter CanvasCommand.isSetter).foldl Canvas.apply
    ⟨c.brush, .blank c.raster.width c.raster.height⟩
  have hbrush : drawn.brush = set.brush := by
    rw [brush_foldl_apply, brush_foldl_apply, List.filter_filter]
    simp
  have hraster : set.raster = .blank c.raster.width c.raster.height :=
    raster_foldl_apply_setters commands _
  obtain ⟨hwidth, hheight⟩ := Prod.mk.inj (size_foldl_apply commands c)
  calc drawn.apply .clear
    _ = ⟨drawn.brush, .blank drawn.raster.width drawn.raster.height⟩ := rfl
    _ = ⟨set.brush, .blank c.raster.width c.raster.height⟩ := by rw [hbrush, hwidth, hheight]
    _ = ⟨set.brush, set.raster⟩ := by rw [hraster]
    _ = set := rfl

/-- Clearing makes earlier drawing irrelevant and keeps the brush. Commands with a clear among
them leave the same brush and the same raster, pixels and texts, as the setters before the clear
and all commands after it do on a blank raster of the same size. Each command either sets the
brush and leaves no mark, or leaves the brush alone. -/
theorem clearing_keeps_brush_only (c : Canvas) (before after : List CanvasCommand) :
    (before ++ [CanvasCommand.clear] ++ after).foldl Canvas.apply c =
      (before.filter CanvasCommand.isSetter ++ after).foldl Canvas.apply
        ⟨c.brush, .blank c.raster.width c.raster.height⟩ ∧
    ∀ command : CanvasCommand,
      if command.isSetter then (c.apply command).raster = c.raster
      else (c.apply command).brush = c.brush := by
  constructor
  · rw [List.foldl_append, List.foldl_append, List.foldl_append, ← apply_clear_foldl_apply]
    rfl
  · intro command
    cases hkind : command.isSetter with
    | true => exact CanvasCommand.draw_of_sets _ _ hkind
    | false => exact Brush.change_of_draws _ hkind

end LogoStudio
