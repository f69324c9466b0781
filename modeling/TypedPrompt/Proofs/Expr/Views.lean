/-
# `Proofs.Expr.Views` — trees, seen with more or less of their places

The tree as a `View` shows it: every node has what is seen of its place.  Trees that
look alike agree in all the rest, so the equality that ignores places cannot tell
them apart (`same_of_view_eq`), apart from constants that differ from themselves.
-/
import TypedPrompt.Expr.Equality
import TypedPrompt.Proofs.Token.Views

namespace TypedPrompt

/-- A place in a file as it is seen. -/
def Location.view (v : View) (l : Location) : Location := ⟨v.see l.position, v.seeFile l.file⟩

@[simp] theorem Location.view_exact (l : Location) : l.view .exact = l := rfl

namespace Expr

mutual

/-- A tree as it is seen. -/
def view (v : View) : Expr → Expr
  | literal l x => literal (l.view v) x
  | identifier l name => identifier (l.view v) name
  | lambda l params body returns =>
      lambda (l.view v) (viewParams v params) (view v body) returns
  | application l function arguments =>
      application (l.view v) (view v function) (viewAll v arguments)
  | letIn l bindings body => letIn (l.view v) (viewBindings v bindings) (view v body)
  | template l parts => template (l.view v) (viewParts v parts)
  | pipeline l stages => pipeline (l.view v) (viewAll v stages)
  | assertion l subject type => assertion (l.view v) (view v subject) type
  | bare name => bare name

/-- Trees as they are seen. -/
def viewAll (v : View) : List Expr → List Expr
  | [] => []
  | e :: es => view v e :: viewAll v es

/-- Parameters as they are seen. -/
def viewParams (v : View) : List (Parameter Expr) → List (Parameter Expr)
  | [] => []
  | ⟨name, type, none⟩ :: ps => ⟨name, type, none⟩ :: viewParams v ps
  | ⟨name, type, some e⟩ :: ps => ⟨name, type, some (view v e)⟩ :: viewParams v ps

/-- Bindings as they are seen. -/
def viewBindings (v : View) : List (Binding Expr) → List (Binding Expr)
  | [] => []
  | ⟨name, type, e⟩ :: bs => ⟨name, type, view v e⟩ :: viewBindings v bs

/-- The parts of a template as they are seen. -/
def viewParts (v : View) : List (Part Expr) → List (Part Expr)
  | [] => []
  | .text s :: ps => .text s :: viewParts v ps
  | .embed e :: ps => .embed (view v e) :: viewParts v ps

end

/-- A parameter as it is seen. -/
def viewParam (v : View) (p : Parameter Expr) : Parameter Expr :=
  ⟨p.name, p.type, p.default.map (view v)⟩

/-- A binding as it is seen. -/
def viewBinding (v : View) (b : Binding Expr) : Binding Expr := ⟨b.name, b.type, view v b.value⟩

/-- A part of a template as it is seen. -/
def viewPart (v : View) : Part Expr → Part Expr
  | .text s => .text s
  | .embed e => .embed (view v e)

variable {v : View}

theorem viewAll_eq (es : List Expr) : viewAll v es = es.map (view v) := by
  induction es with
  | nil => rfl
  | cons e es ih => rw [viewAll, ih, List.map_cons]

theorem viewParams_eq (ps : List (Parameter Expr)) : viewParams v ps = ps.map (viewParam v) := by
  induction ps with
  | nil => rfl
  | cons p ps ih =>
      obtain ⟨name, type, default⟩ := p
      cases default <;> rw [viewParams, ih, List.map_cons] <;> rfl

theorem viewBindings_eq (bs : List (Binding Expr)) :
    viewBindings v bs = bs.map (viewBinding v) := by
  induction bs with
  | nil => rfl
  | cons b bs ih => rw [viewBindings, ih, List.map_cons]; rfl

theorem viewParts_eq (ps : List (Part Expr)) : viewParts v ps = ps.map (viewPart v) := by
  induction ps with
  | nil => rfl
  | cons p ps ih => cases p <;> rw [viewParts, ih, List.map_cons] <;> rfl

/-- Trees that look alike begin at places that look alike. -/
theorem view_loc {e f : Expr} (h : e.view v = f.view v) : e.loc.view v = f.loc.view v := by
  cases e <;> cases f <;> simp_all [view, loc]

/-! ## With everything seen -/

mutual

@[simp] theorem view_exact : ∀ e : Expr, e.view .exact = e
  | literal _ _ | identifier _ _ | bare _ => rfl
  | lambda _ ps body _ => by simp [view, viewParams_exact ps, view_exact body]
  | application _ f as => by simp [view, view_exact f, viewAll_exact as]
  | letIn _ bs body => by simp [view, viewBindings_exact bs, view_exact body]
  | template _ ps => by simp [view, viewParts_exact ps]
  | pipeline _ ss => by simp [view, viewAll_exact ss]
  | assertion _ e _ => by simp [view, view_exact e]

theorem viewAll_exact : ∀ es : List Expr, viewAll .exact es = es
  | [] => rfl
  | e :: es => by simp [viewAll, view_exact e, viewAll_exact es]

theorem viewParams_exact : ∀ ps : List (Parameter Expr), viewParams .exact ps = ps
  | [] => rfl
  | ⟨_, _, none⟩ :: ps => by simp [viewParams, viewParams_exact ps]
  | ⟨_, _, some e⟩ :: ps => by simp [viewParams, view_exact e, viewParams_exact ps]

theorem viewBindings_exact : ∀ bs : List (Binding Expr), viewBindings .exact bs = bs
  | [] => rfl
  | ⟨_, _, e⟩ :: bs => by simp [viewBindings, view_exact e, viewBindings_exact bs]

theorem viewParts_exact : ∀ ps : List (Part Expr), viewParts .exact ps = ps
  | [] => rfl
  | .text _ :: ps => by simp [viewParts, viewParts_exact ps]
  | .embed e :: ps => by simp [viewParts, view_exact e, viewParts_exact ps]

end

/-! ## Equality does not look at places -/

mutual

theorem same_view : ∀ e f : Expr, same (e.view v) (f.view v) = same e f
  | literal _ _, f => by cases f <;> simp [view, same]
  | identifier _ _, f => by cases f <;> simp [view, same]
  | lambda _ ps body _, f => by
      cases f <;> simp [view, same, sameParams_view ps, same_view body]
  | application _ g as, f => by
      cases f <;> simp [view, same, same_view g, sameAll_view as]
  | letIn _ bs body, f => by
      cases f <;> simp [view, same, sameBindings_view bs, same_view body]
  | template _ ps, f => by cases f <;> simp [view, same, sameParts_view ps]
  | pipeline _ ss, f => by cases f <;> simp [view, same, sameAll_view ss]
  | assertion _ e _, f => by cases f <;> simp [view, same, same_view e]
  | bare _, f => by cases f <;> simp [view, same]

theorem sameAll_view : ∀ es fs : List Expr,
    sameAll (viewAll v es) (viewAll v fs) = sameAll es fs
  | [], fs => by cases fs <;> simp [viewAll, sameAll]
  | e :: es, fs => by cases fs <;> simp [viewAll, sameAll, same_view e, sameAll_view es]

theorem sameParams_view : ∀ ps qs : List (Parameter Expr),
    sameParams (viewParams v ps) (viewParams v qs) = sameParams ps qs
  | [], [] => rfl
  | [], ⟨_, _, none⟩ :: _ => by simp [viewParams, sameParams]
  | [], ⟨_, _, some _⟩ :: _ => by simp [viewParams, sameParams]
  | ⟨_, _, none⟩ :: _, [] => by simp [viewParams, sameParams]
  | ⟨_, _, none⟩ :: ps, ⟨_, _, none⟩ :: qs => by
      simp [viewParams, sameParams, sameParams_view ps]
  | ⟨_, _, none⟩ :: _, ⟨_, _, some _⟩ :: _ => by simp [viewParams, sameParams]
  | ⟨_, _, some _⟩ :: _, [] => by simp [viewParams, sameParams]
  | ⟨_, _, some _⟩ :: _, ⟨_, _, none⟩ :: _ => by simp [viewParams, sameParams]
  | ⟨_, _, some e⟩ :: ps, ⟨_, _, some _⟩ :: qs => by
      simp [viewParams, sameParams, sameParams_view ps, same_view e]

theorem sameBindings_view : ∀ bs cs : List (Binding Expr),
    sameBindings (viewBindings v bs) (viewBindings v cs) = sameBindings bs cs
  | [], [] => rfl
  | [], ⟨_, _, _⟩ :: _ => by simp [viewBindings, sameBindings]
  | ⟨_, _, _⟩ :: _, [] => by simp [viewBindings, sameBindings]
  | ⟨_, _, e⟩ :: bs, ⟨_, _, _⟩ :: cs => by
      simp [viewBindings, sameBindings, same_view e, sameBindings_view bs]

theorem sameParts_view : ∀ ps qs : List (Part Expr),
    sameParts (viewParts v ps) (viewParts v qs) = sameParts ps qs
  | [], [] => rfl
  | [], .text _ :: _ => by simp [viewParts, sameParts]
  | [], .embed _ :: _ => by simp [viewParts, sameParts]
  | .text _ :: _, [] => by simp [viewParts, sameParts]
  | .text _ :: ps, .text _ :: qs => by simp [viewParts, sameParts, sameParts_view ps]
  | .text _ :: _, .embed _ :: _ => by simp [viewParts, sameParts]
  | .embed _ :: _, [] => by simp [viewParts, sameParts]
  | .embed _ :: _, .text _ :: _ => by simp [viewParts, sameParts]
  | .embed e :: ps, .embed _ :: qs => by
      simp [viewParts, sameParts, same_view e, sameParts_view ps]

end

/-- A tree that equals itself equals the trees that look like it. -/
theorem same_of_view_eq {e f : Expr} (h : e.view v = f.view v) (he : same e e = true) :
    same e f = true := by
  rw [← same_view (v := v), ← h, same_view]
  exact he

end Expr

end TypedPrompt
