import Mathlib.Init

/-! Finite runs of a labelled step relation, with the labels in order.
A property of every run is proved once per step. -/
namespace Mooncache
variable {S L : Type*}

/-- `Run step init trace s`: the labels of `trace`, taken in order from `init`, lead to `s`. -/
inductive Run (step : S → L → S → Prop) (init : S) : List L → S → Prop
  | start : Run step init [] init
  | snoc {trace : List L} {s s' : S} {l : L} :
      Run step init trace s → step s l s' → Run step init (trace ++ [l]) s'

/-- The steps whose label meets a condition in the state before them. -/
def Guarded (guard : S → L → Prop) (step : S → L → S → Prop) (s : S) (l : L) (s' : S) : Prop :=
  guard s l ∧ step s l s'

namespace Run
variable {step : S → L → S → Prop} {init : S}

/-- What holds at the start and survives each step holds after every run. -/
theorem invariant {P : List L → S → Prop} (start : P [] init)
    (next : ∀ {trace s l s'}, Run step init trace s → P trace s → step s l s' → P (trace ++ [l]) s')
    {trace : List L} {s : S} (h : Run step init trace s) : P trace s := by
  induction h with
  | start => exact start
  | snoc run last ih => exact next run ih last

theorem mono {other : S → L → S → Prop} (h : ∀ s l s', step s l s' → other s l s')
    {trace : List L} {s : S} (run : Run step init trace s) : Run other init trace s := by
  induction run with
  | start => exact .start
  | snoc _ last ih => exact ih.snoc (h _ _ _ last)

theorem of_guarded {guard : S → L → Prop} {trace : List L} {s : S}
    (run : Run (Guarded guard step) init trace s) : Run step init trace s :=
  run.mono fun _ _ _ h => h.2

theorem append {middle s : S} {first second : List L} (before : Run step init first middle)
    (after : Run step middle second s) : Run step init (first ++ second) s := by
  induction after with
  | start => simpa using before
  | snoc _ last ih =>
    rw [← List.append_assoc]
    exact ih.snoc last

/-- A run through a label stops before it and after it. -/
theorem split {before after : List L} {l : L} {s : S} (run : Run step init (before ++ l :: after) s) :
    ∃ middle next, Run step init before middle ∧ step middle l next ∧ Run step next after s := by
  generalize whole : before ++ l :: after = trace at run
  induction run generalizing after with
  | start => simp at whole
  | @snoc trace s s' last run step_last ih =>
    rcases List.eq_nil_or_concat after with rfl | ⟨rest, final, rfl⟩
    · obtain ⟨rfl, same⟩ := List.append_inj' whole rfl
      cases same
      exact ⟨_, _, run, step_last, .start⟩
    · rw [List.concat_eq_append, ← List.cons_append, ← List.append_assoc] at whole
      obtain ⟨earlier, same⟩ := List.append_inj' whole rfl
      cases same
      obtain ⟨middle, next, first, between, later⟩ := ih earlier
      rw [List.concat_eq_append]
      exact ⟨middle, next, first, between, later.snoc step_last⟩

/-- The run from `init` to `s` takes the label `l` from `middle` to `next`, after the labels `before`. -/
def At (step : S → L → S → Prop) (init : S) (trace : List L) (s : S) (before : List L) (middle : S) (l : L)
    (next : S) : Prop :=
  ∃ after, trace = before ++ l :: after ∧ Run step init before middle ∧ step middle l next ∧ Run step next after s

theorem At.append {before first second : List L} {middle next s s' : S} {l : L}
    (h : At step init first s before middle l next) (after : Run step s second s') :
    At step init (first ++ second) s' before middle l next := by
  obtain ⟨rest, rfl, past, last, later⟩ := h
  exact ⟨rest ++ second, by simp, past, last, later.append after⟩

/-- A run whose steps all meet the guard is a guarded run. -/
theorem guarded_of_at {guard : S → L → Prop} {trace : List L} {s : S} (run : Run step init trace s)
    (met : ∀ before middle l next, At step init trace s before middle l next → guard middle l) :
    Run (Guarded guard step) init trace s := by
  induction run with
  | start => exact .start
  | snoc past last ih =>
    refine (ih fun before middle l next h => met before middle l next (h.append (Run.start.snoc last))).snoc ⟨?_, last⟩
    exact met _ _ _ _ ⟨[], rfl, past, last, .start⟩

/-- A run whose labels all meet a condition. -/
theorem guarded_of_mem {ok : L → Prop} {trace : List L} {s : S} (run : Run step init trace s)
    (met : ∀ l ∈ trace, ok l) : Run (Guarded (fun _ l => ok l) step) init trace s :=
  guarded_of_at run fun _ _ l _ h => by
    obtain ⟨after, rfl, _⟩ := h
    exact met l (List.mem_append_right _ List.mem_cons_self)

theorem mem_of_guarded {ok : L → Prop} {trace : List L} {s : S}
    (run : Run (Guarded (fun _ l => ok l) step) init trace s) : ∀ l ∈ trace, ok l := by
  induction run with
  | start => simp
  | snoc _ last ih =>
    intro l member
    rcases List.mem_append.mp member with member | final
    · exact ih l member
    · exact List.mem_singleton.mp final ▸ last.1

/-- The run from `init` to `s` goes through `middle`. -/
def Through (step : S → L → S → Prop) (init : S) (trace : List L) (s middle : S) : Prop :=
  ∃ earlier later, trace = earlier ++ later ∧ Run step init earlier middle ∧ Run step middle later s

theorem through_self {trace : List L} {s : S} (run : Run step init trace s) : Through step init trace s s :=
  ⟨trace, [], (List.append_nil trace).symm, run, .start⟩

theorem Through.snoc {trace : List L} {s s' middle : S} {l : L} (h : Through step init trace s middle)
    (last : step s l s') : Through step init (trace ++ [l]) s' middle := by
  obtain ⟨earlier, later, rfl, before, after⟩ := h
  exact ⟨earlier, later ++ [l], List.append_assoc _ _ _, before, after.snoc last⟩

/-- Each label is allowed in the state in which its turn comes. -/
def Allowed (allowed : S → L → Prop) (apply : S → L → S) : S → List L → Prop
  | _, [] => True
  | s, l :: rest => allowed s l ∧ Allowed allowed apply (apply s l) rest

theorem of_allowed {allowed : S → L → Prop} {apply : S → L → S}
    (h : ∀ s l, allowed s l → step s l (apply s l)) {trace : List L}
    (ok : Allowed allowed apply init trace) : Run step init trace (trace.foldl apply init) := by
  induction trace generalizing init with
  | nil => exact .start
  | cons l rest ih => exact (Run.start.snoc (h init l ok.1)).append (ih ok.2)

private theorem Allowed.snoc {allowed : S → L → Prop} {apply : S → L → S} {trace : List L} {l : L}
    (h : Allowed allowed apply init trace) (last : allowed (trace.foldl apply init) l) :
    Allowed allowed apply init (trace ++ [l]) := by
  induction trace generalizing init with
  | nil => exact ⟨last, trivial⟩
  | cons first rest ih => exact ⟨h.1, ih h.2 last⟩

/-- A run of a system whose steps are computed is the run of its labels. -/
theorem replayed {allowed : S → L → Prop} {apply : S → L → S}
    (h : ∀ {s l s'}, step s l s' → allowed s l ∧ s' = apply s l) {trace : List L} {s : S}
    (run : Run step init trace s) : Allowed allowed apply init trace ∧ s = trace.foldl apply init := by
  induction run with
  | start => exact ⟨trivial, rfl⟩
  | snoc _ last ih =>
    obtain ⟨ok, rfl⟩ := ih
    obtain ⟨now, rfl⟩ := h last
    exact ⟨ok.snoc now, by simp⟩

end Run
end Mooncache
