import Mathlib.Data.List.Basic

/-!
# Monitors

A safety property of a log as a partial function on states: `next` fails on
what is forbidden. A log is safe if it can be followed to its end.
-/
namespace WebPlayer.Core.Monitor

variable {S O : Type} {next : S → O → Option S}

def follow (next : S → O → Option S) (s : S) (os : List O) : Option S := os.foldlM next s

theorem follow_cons (s : S) (o : O) (os : List O) :
    follow next s (o :: os) = (next s o).bind fun s' => follow next s' os := List.foldlM_cons

theorem follow_append (s : S) (os os' : List O) :
    follow next s (os ++ os') = (follow next s os).bind fun s' => follow next s' os' := List.foldlM_append

theorem follow_inert {s : S} {os : List O} (h : ∀ o ∈ os, next s o = some s) : follow next s os = some s := by
  induction os with
  | nil => rfl
  | cons o os ih =>
    rw [follow_cons, h o List.mem_cons_self]
    exact ih fun o' ho' => h o' (List.mem_cons_of_mem _ ho')

/-- Every part of a safe log was safe where it stands. -/
theorem follow_split {s t : S} {os os' : List O} (h : follow next s (os ++ os') = some t) :
    ∃ u, follow next s os = some u ∧ follow next u os' = some t := by
  rw [follow_append] at h
  exact Option.bind_eq_some_iff.mp h

/-- A log from where an element resets the state. -/
theorem follow_reset {s t r : S} {log pre post rest : List O} {o : O} (h : follow next s log = some t)
    (hlog : log = pre ++ o :: (post ++ rest)) (hreset : ∀ u u', next u o = some u' → u' = r) :
    ∃ w, follow next r post = some w ∧ follow next w rest = some t := by
  rw [hlog] at h
  obtain ⟨u, -, h⟩ := follow_split h
  rw [follow_cons] at h
  obtain ⟨u', hnext, h⟩ := Option.bind_eq_some_iff.mp h
  rw [hreset u u' hnext] at h
  exact follow_split h

/-- What holds at the start and is kept by each permitted step. -/
theorem follow_induction {I : S → List O → Prop} {s t : S} {os : List O} (h : follow next s os = some t)
    (hstart : I s []) (hstep : ∀ u u' done o, o ∈ os → I u done → next u o = some u' → I u' (done ++ [o])) : I t os := by
  suffices H : ∀ (done : List O) (u : S), I u done → follow next u os = some t → I t (done ++ os) from H [] s hstart h
  clear h hstart
  induction os with
  | nil =>
    intro done u hu h
    cases h
    rwa [List.append_nil]
  | cons o os ih =>
    intro done u hu h
    rw [follow_cons] at h
    obtain ⟨u', hnext, h⟩ := Option.bind_eq_some_iff.mp h
    rw [List.append_cons]
    apply ih (fun u u' done o ho => hstep u u' done o (List.mem_cons_of_mem _ ho)) (done ++ [o]) u' _ h
    exact hstep u u' done o List.mem_cons_self hu hnext

/-- An element of a longer list is the last one or one of the others. -/
theorem snoc_split {os pre post : List O} {o x : O} (h : os ++ [o] = pre ++ x :: post) :
    (os = pre ∧ o = x ∧ post = []) ∨ ∃ post', os = pre ++ x :: post' ∧ post = post' ++ [o] := by
  rcases List.eq_nil_or_concat post with rfl | ⟨post', y, rfl⟩
  · obtain ⟨hpre, hlast⟩ := List.append_inj' h rfl
    cases hlast
    exact .inl ⟨hpre, rfl, rfl⟩
  · have hcut : os ++ [o] = (pre ++ x :: post') ++ [y] := by simpa using h
    obtain ⟨hpre, hlast⟩ := List.append_inj' hcut rfl
    cases hlast
    exact .inr ⟨post', hpre, by simp⟩

end WebPlayer.Core.Monitor
