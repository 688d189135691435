import OrbitOps.Py.JsonRead
import OrbitOps.Py.Jsonl
import OrbitOps.Py.Printable

/-!
# The lines of a file

A file that is opened as text yields its lines with one kind of line break. Printable lines that are
written one after another are the lines that are read, and the compact JSON text of every value is
such a line.
-/

namespace Py

/-- The lines of a text with universal newlines; the current one starts with `line`. -/
def linesFrom (line : List Char) : List Char → List String
  | [] => if line = [] then [] else [.ofList line]
  | '\r' :: '\n' :: cs => .ofList (line ++ ['\n']) :: linesFrom [] cs
  | '\r' :: cs => .ofList (line ++ ['\n']) :: linesFrom [] cs
  | '\n' :: cs => .ofList (line ++ ['\n']) :: linesFrom [] cs
  | c :: cs => linesFrom (line ++ [c]) cs

/-- A readable file with this text. -/
def TextFile.ofText (text : String) : TextFile := ⟨linesFrom [] text.toList, none⟩

/-- The text of lines that are written one after another. -/
def fileText (lines : List String) : String := lines.foldr (· ++ ·) ""

theorem linesFrom_plain {cs : List Char} (h : ∀ c ∈ cs, c ≠ '\r' ∧ c ≠ '\n') (line rest : List Char) :
    linesFrom line (cs ++ '\n' :: rest) = .ofList (line ++ cs ++ ['\n']) :: linesFrom [] rest := by
  induction cs generalizing line with
  | nil => rw [List.nil_append, linesFrom, List.append_nil]
  | cons c cs ih =>
    obtain ⟨hcr, hnl⟩ := h c (List.mem_cons_self ..)
    rw [List.cons_append, linesFrom, ih fun c' hc' => h c' (List.mem_cons_of_mem _ hc')]
    · rw [List.append_assoc line, List.singleton_append]
    · exact fun _ hc _ => hcr hc
    · exact hcr
    · exact hnl

/-- Printable lines are read as they were written. -/
theorem linesFrom_fileText {texts : List String} (h : ∀ s ∈ texts, Printable s) :
    linesFrom [] (fileText (texts.map (· ++ "\n"))).toList = texts.map (· ++ "\n") := by
  induction texts with
  | nil => rfl
  | cons s texts ih =>
    have hs : ∀ c ∈ s.toList, c ≠ '\r' ∧ c ≠ '\n' := by
      intro c hc
      have hp := h s (List.mem_cons_self ..)
      exact ⟨fun heq => hp.not_mem (by decide) (heq ▸ hc), fun heq => hp.not_mem (by decide) (heq ▸ hc)⟩
    have hsplit : (fileText ((s :: texts).map (· ++ "\n"))).toList =
        s.toList ++ '\n' :: (fileText (texts.map (· ++ "\n"))).toList := by
      rw [List.map_cons, fileText, List.foldr_cons, String.toList_append, String.toList_append, List.append_assoc]
      rfl
    rw [hsplit, linesFrom_plain hs, ih fun t ht => h t (List.mem_cons_of_mem _ ht), List.map_cons, List.nil_append]
    refine congrArg (· :: _) (String.toList_inj.mp ?_)
    rw [String.toList_ofList, String.toList_append]
    rfl

namespace Json

mutual

/-- A JSON text on one line is printable, whatever the value. -/
theorem printable_dumps : (v : Json) → Printable v.dumps
  | .null => Py.printable_dumps .none
  | .bool b => Py.printable_dumps (.bool b)
  | .int n => Py.printable_dumps (.int n)
  | .float x => Py.printable_dumps (.float x)
  | .str s => Py.printable_dumps (.str s)
  | .arr items => by
    rw [dumps]
    exact ((by decide : Printable "[").append (printable_join (by decide) (printable_dumpsList items))).append (by decide)
  | .obj items => by
    rw [dumps]
    refine ((by decide : Printable "\x7b").append (printable_join (by decide) fun s hs => ?_)).append (by decide)
    obtain ⟨kv, hkv, rfl⟩ := List.mem_map.mp hs
    exact ((printable_quoteStr kv.1).append (by decide)).append (printable_dumpsItems items kv (mem_sortItems.mp hkv))

theorem printable_dumpsList : (items : List Json) → ∀ s ∈ dumpsList items, Printable s
  | [], _, hs => by cases hs
  | v :: rest, s, hs => by
    rcases List.mem_cons.mp hs with rfl | hs
    · exact printable_dumps v
    · exact printable_dumpsList rest s hs

theorem printable_dumpsItems : (items : List (String × Json)) → ∀ kv ∈ dumpsItems items, Printable kv.2
  | [], _, hkv => by cases hkv
  | (_, v) :: rest, kv, hkv => by
    rcases List.mem_cons.mp hkv with rfl | hkv
    · exact printable_dumps v
    · exact printable_dumpsItems rest kv hkv

end

end Json

theorem lines_written {α : Type} (toJson : α → Json) (xs : List α) :
    (TextFile.ofText (fileText (xs.map fun x => (toJson x).line))) = ⟨xs.map fun x => (toJson x).line, none⟩ := by
  have hlines : xs.map (fun x => (toJson x).line) = (xs.map fun x => (toJson x).dumps).map (· ++ "\n") := by
    rw [List.map_map]
    rfl
  rw [TextFile.ofText, hlines, linesFrom_fileText]
  intro s hs
  obtain ⟨x, -, rfl⟩ := List.mem_map.mp hs
  exact (toJson x).printable_dumps

end Py
