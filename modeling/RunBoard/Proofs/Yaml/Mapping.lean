import RunBoard.Proofs.Yaml.Lines
import RunBoard.Yaml.Node

namespace RunBoard.Yaml

def entryNodes (entry : List Char × List Char) : Node × Node :=
  (.scalar (String.ofList entry.1) .plain none, .scalar (String.ofList entry.2) .plain none)

namespace Node

variable {text : String} {style : ScalarStyle} {rest : List Token} {anchors : List Anchor}
  {handles : List (String × Tag)}

theorem nodeUnless?_scalar (inBlock dashes : Bool) {marks : List Token}
    (unmarked : marks.contains (.scalar text style) = false) (fuel : Nat) :
    nodeUnless? inBlock dashes marks (fuel + 3) ⟨.scalar text style :: rest, anchors, handles⟩ =
      some (.scalar text style none, ⟨rest, anchors, handles⟩) := by
  rw [nodeUnless?]
  simp only [comesNext, List.head?_cons, Option.any_some, unmarked, Bool.false_eq_true, if_false]
  rfl

theorem node?_blockMapping (fuel : Nat) :
    node? true false (fuel + 2) ⟨.blockMapping :: rest, anchors, handles⟩ =
      blockPairs? fuel [] ⟨rest, anchors, handles⟩ := by
  have content : content? true false (fuel + 1) ⟨none, none⟩ ⟨.blockMapping :: rest, anchors, handles⟩ =
      blockPairs? fuel [] ⟨rest, anchors, handles⟩ := by
    rw [content?]
    rfl
  rw [node?]
  simp only [properties?, openAnchor, Option.bind_eq_bind, Option.bind_some, content]
  cases blockPairs? fuel [] ⟨rest, anchors, handles⟩ <;> rfl

theorem blockPairs?_lines (todo : List (List Char × List Char)) (read : List (Node × Node))
    {fuel : Nat} (enough : todo.length + 4 ≤ fuel) :
    blockPairs? fuel read ⟨todo.flatMap entryTokens ++ [.blockEnd], anchors, handles⟩ =
      some (mapping (read.reverse ++ todo.map entryNodes), ⟨[], anchors, handles⟩) := by
  -- By the lines to come. Reading a pair takes one of the fuel, and a scalar needs three below that.
  induction todo generalizing read fuel with
  | nil =>
    obtain ⟨fuel, rfl⟩ : ∃ less, fuel = less + 1 := ⟨fuel - 1, by simp at enough; omega⟩
    simp [blockPairs?]
  | cons entry others ih =>
    obtain ⟨fuel, rfl⟩ : ∃ less, fuel = less + 4 := ⟨fuel - 4, by simp at enough; omega⟩
    have unmarked (text : String) :
        [Token.key, .value, .blockEnd].contains (.scalar text .plain) = false := rfl
    have left := ih (entryNodes entry :: read) (by simp at enough; omega : others.length + 4 ≤ fuel + 3)
    rw [blockPairs?]
    simp only [List.flatMap_cons, entryTokens, List.cons_append, List.nil_append,
      nodeUnless?_scalar true true (unmarked _), Option.bind_eq_bind, Option.bind_some]
    exact left.trans (by simp)

end Node

namespace Document

theorem length_le_entryTokens (entries : List (List Char × List Char)) :
    entries.length ≤ (entries.flatMap entryTokens).length := by
  induction entries with
  | nil => exact Nat.le_refl 0
  | cons entry rest ih =>
    simp only [List.flatMap_cons, List.length_append, List.length_cons, entryTokens]
    omega

theorem body?_lines (entries : List (List Char × List Char)) :
    body? false [] (.blockMapping :: (entries.flatMap entryTokens ++ [.blockEnd])) =
      some { root := .mapping (entries.map entryNodes), anchors := [] } := by
  have length := length_le_entryTokens entries
  have enough : entries.length + 4 ≤
      4 * (entries.flatMap entryTokens ++ [Token.blockEnd]).length + 6 := by
    rw [List.length_append]
    omega
  have fuel : 4 * (Token.blockMapping :: (entries.flatMap entryTokens ++ [.blockEnd])).length + 4 =
      4 * (entries.flatMap entryTokens ++ [Token.blockEnd]).length + 6 + 2 := by
    rw [List.length_cons]
    omega
  rw [body?, fuel]
  simp only [Bool.false_and, Bool.false_eq_true, if_false, Node.node?_blockMapping,
    Node.blockPairs?_lines entries [] enough, Option.bind_eq_bind, Option.bind_some]
  rfl

/-- A text of lines is a document with one mapping, and a text without lines is none. -/
theorem ofText?_linesOf {entries : List (List Char × List Char)}
    (each : ∀ entry ∈ entries, IsEntry entry) :
    ofText? (String.ofList (linesOf entries)) = some (
      if entries.isEmpty then none
      else some { root := .mapping (entries.map entryNodes), anchors := [] }) := by
  rw [ofText?, tokens?_linesOf each]
  cases entries with
  | nil => rfl
  | cons entry rest =>
    have opened : lineTokens (entry :: rest) =
        .blockMapping :: ((entry :: rest).flatMap entryTokens ++ [.blockEnd]) := rfl
    have body := body?_lines (entry :: rest)
    rw [opened]
    generalize (entry :: rest).flatMap entryTokens ++ [.blockEnd] = tokens at body
    have directives : directives? false [] (.blockMapping :: tokens) =
        some ([], .blockMapping :: tokens) := rfl
    simp only [Option.bind_eq_bind, Option.bind_some, directives, if_true, body]
    rfl

end Document

end RunBoard.Yaml
