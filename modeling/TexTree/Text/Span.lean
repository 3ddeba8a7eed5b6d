/-!
# Spans

Texts are cut at the first character that fails a test.  What is left behind
such a cut is never longer than the text.
-/

namespace TexTree.Text

theorem length_dropWhile_le {α : Type} (test : α → Bool) (text : List α) :
    (text.dropWhile test).length ≤ text.length :=
  (List.dropWhile_sublist test).length_le

end TexTree.Text
