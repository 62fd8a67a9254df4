import Rehome.Proofs.Decoding
import Rehome.Proofs.Linewise
import Rehome.Tool.Rehearsal
import Rehome.Tool.Systems
import Mathlib.Data.List.Basic

/-!
# Printouts — what a tool prints, from bytes to an answer

A tool is run for a call and leaves bytes on its standard output. These are decoded and cut into lines
before anything is read off them. When they are lines of text, joined by line feeds (`Systems.Prints`),
a reader that takes line by line gets the very lines that were printed (`Prints.read`). A line feed at the
end of the printout makes one more line, an empty one.
-/

namespace Rehome.Tool

/-- A text that is printed is read by its lines. -/
theorem Output.stdout_ofCompletion {c : Completion} {text : String} (h : c.stdout = text.toUTF8) :
    (ofCompletion c).stdout = Text.lines text := by
  rw [ofCompletion, h, Text.decode_toUTF8]

namespace Systems

variable {σ : Type} {t : Systems} {runner : Runner σ} {call : Call} {s : σ} {printed : List String}

/-- What the tool that is run for a call leaves is what the call is answered from. -/
theorem reply_of_launch {c : Completion} (hnoNul : (t.invocation call).hasNul = false)
    (hlaunch : (runner.launch (t.invocation call) s).1 = .ok c) :
    (t.reply runner call s).1 = t.answer call (.ofCompletion c) := by
  have hexecute : (runner.execute (t.invocation call) s).1 = .ok (.ofCompletion c) := by
    rw [Runner.execute, hnoNul]
    cases hback : runner.launch (t.invocation call) s with
    | mk result later =>
        rw [hback] at hlaunch
        cases hlaunch
        rfl
  rw [reply, hexecute]
  rfl

/-- The tool that is run for a call prints lines. How it ends and what else it prints is left open. -/
structure Prints (t : Systems) (runner : Runner σ) (call : Call) (s : σ) (printed : List String) :
    Prop where
  noNul : (t.invocation call).hasNul = false
  stdout : ∃ c, (runner.launch (t.invocation call) s).1 = .ok c ∧
    c.stdout = (String.intercalate "\n" printed).toUTF8

namespace Prints

variable {Line : Type} {text : Line → String} {listing : List Line}

/-- The answer to the call is what its output means, and a reader that takes line by line gets from that
    output what it makes of the lines of the listing that was printed. -/
theorem read (h : t.Prints runner call s (listing.map text))
    (honeLine : ∀ line ∈ listing, '\n' ∉ (text line).toList) :
    ∃ o, (t.reply runner call s).1 = t.answer call o ∧
      ∀ {α : Type} {read : String → Option α} {meaning : Line → Option α}, Text.Linewise read →
        (∀ line ∈ listing, read (text line) = meaning line) →
        o.stdout.filterMap read = listing.filterMap meaning := by
  obtain ⟨c, hlaunch, hbytes⟩ := h.stdout
  refine ⟨.ofCompletion c, reply_of_launch h.noNul hlaunch, ?_⟩
  intro α read meaning hread hmeaning
  have hparts : ∀ part ∈ listing.map text, '\n' ∉ part.toList := by
    intro part hpart
    obtain ⟨line, hline, rfl⟩ := List.mem_map.mp hpart
    exact honeLine line hline
  rw [Output.stdout_ofCompletion hbytes, hread.filterMap_lines_intercalate (.inl rfl) hparts,
    List.filterMap_map]
  exact List.filterMap_congr hmeaning

end Prints

end Systems

/-- A run that prints lines. -/
def Response.printing (printed : List String) : Response where
  stdout := (String.intercalate "\n" printed).toUTF8

/-- A rehearsal whose first run prints lines. -/
def Rehearsal.printing (printed : List String) : Rehearsal where
  responses := [.printing printed]

theorem Rehearsal.prints_printing {t : Systems} {installed : List String} {call : Call}
    (hinstalled : (t.invocation call).program ∈ installed)
    (hnoNul : (t.invocation call).hasNul = false) (printed : List String) :
    t.Prints (Rehearsal.runner installed) call (.printing printed) printed where
  noNul := hnoNul
  stdout := ⟨(Response.printing printed).completion, congrArg Prod.fst (if_pos hinstalled), rfl⟩

end Rehome.Tool
