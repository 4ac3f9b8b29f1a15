import EngineHost.Proofs.TemplateForm
import EngineHost.Proofs.TemplateSubstitution
import EngineHost.Simulator.Program

/-!
# Programs that are their own template

The braces of nets are text to a template as long as no two that open stand side by side. So a
program is its own template just if it has no such pair.
-/

namespace EngineHost

namespace Template.Program

variable {p : Program} {s : Bytes}

/-- A template of text alone. It asks for no parameter and is rendered as that text, whatever it is
rendered with. -/
structure Verbatim (p : Program) (s : Bytes) : Prop where
  body_eq : p.body = [.text s]
  params_eq : p.params = []
  render_eq : ∀ params, p.render params = .ok s

private theorem verbatim_of_body (h : p.body = [.text s]) : p.Verbatim s := by
  have hparts : parts? p.body = some [.text s] := by
    rw [h]
    rfl
  refine ⟨h, ?_, fun params => ?_⟩
  · rw [params, h]
    rfl
  · have hrender := render_parts params hparts (by simp)
    simpa [Part.filled] using hrender

private theorem read_of_not_infix (hs : ¬opening <:+: s) (hne : s ≠ []) (name : Bytes) :
    ∃ p, read name s = .ok p ∧ p.Verbatim s := by
  have hfill : fillIn reference [.text s] = s := by simp [Part.filled]
  obtain ⟨nodes, htrees, hparts⟩ := Trees.ofText_alternation (.last hs) name
  rw [hfill] at htrees
  have hnodes : nodes = [.text s] := by
    have htext : ([.text s] : List Part).filter (· ≠ .text []) = [.text s] := by simp [hne]
    rw [htext] at hparts
    cases nodes with
    | nil => simp [parts?] at hparts
    | cons n rest =>
      obtain ⟨part, parts, heq, hn, hrest⟩ := parts?_cons_eq_some_iff.1 hparts
      obtain ⟨rfl, rfl⟩ := List.cons.inj heq
      obtain rfl := Node.eq_of_part?_text hn
      cases rest with
      | nil => rfl
      | cons n' rest =>
        obtain ⟨_, _, heq, -, -⟩ := parts?_cons_eq_some_iff.1 hrest
        simp at heq
  refine ⟨⟨name, s, Dict.insert [] name nodes⟩, ?_, verbatim_of_body ?_⟩
  · rw [read, htrees]
  · rw [body, Dict.get?_insert, if_pos rfl, Option.getD_some, hnodes]

private theorem not_infix_of_read {name : Bytes} (h : read name s = .ok p)
    (hbody : p.body = [.text s]) :
    ¬opening <:+: s := by
  unfold read at h
  split at h
  · rename_i trees htrees
    obtain rfl := Except.ok.inj h
    cases hget : Dict.get? trees name with
    | none => simp [body, hget] at hbody
    | some nodes =>
      obtain rfl : nodes = [.text s] := by simpa [body, hget] using hbody
      have hformed := Trees.formed_of_ofText htrees _ (Dict.mem_of_get? hget)
      exact hformed.1
  · cases h

end Template.Program

namespace Simulator.Program

open Template (opening)

private theorem ne_nil_of_parse {s : Bytes} {q : Program} (h : parse s = .ok q) : s ≠ [] := by
  rintro rfl
  have hempty : parse [] = .error .empty := by decide
  rw [hempty] at h
  cases h

/-- A program is read as the template of its own text just if no two opening braces stand side by
side in it. -/
theorem parse_read_verbatim_iff {s : Bytes} {q : Program} (h : parse s = .ok q) (name : Bytes) :
    (∃ p, Template.Program.read name s = .ok p ∧ p.Verbatim s) ↔ ¬opening <:+: s := by
  constructor
  · rintro ⟨p, hread, hp⟩
    exact Template.Program.not_infix_of_read hread hp.body_eq
  · intro hs
    exact Template.Program.read_of_not_infix hs (ne_nil_of_parse h) name

/-- Nets in braces, no two of which open side by side. -/
def nestedNet : Bytes :=
  "@sort = (\x7b$([+1] a) \x7bc f\x7d\x7d ((d g) (b i)))\n@main = \x7b \x7ba a\x7d\x7d"

theorem parse_read_verbatim_iff_nestedNet :
    (∃ q, parse nestedNet = .ok q) ∧
      ∃ p, Template.Program.read "net" nestedNet = .ok p ∧ p.Verbatim nestedNet := by
  have h : parse nestedNet = .ok ⟨nestedNet, ["sort", "main"]⟩ := by decide +kernel
  exact ⟨⟨_, h⟩, (parse_read_verbatim_iff h "net").2 (by decide +kernel)⟩

example :
    (parse "@main = \x7b\x7ba b\x7d c\x7d").isOk = true ∧
      (Template.Program.read "net" "@main = \x7b\x7ba b\x7d c\x7d").isOk = false := by
  decide +kernel

end Simulator.Program

end EngineHost
