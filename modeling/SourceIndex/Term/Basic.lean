import SourceIndex.Text.Blank
import SourceIndex.Text.Case
import SourceIndex.Text.Word

/-!
# Search terms

The search terms of a text are its runs of word characters in lower case, without the short ones and
without the words that are too common to tell texts apart. A character that is neither blank nor
part of a word separates words as a space does, and it does so before the text is lowered.
-/

namespace SourceIndex

/-- Words that are no search terms: common words of English and of the languages indexed. -/
def stopWords : List Text :=
  ["the", "and", "for", "are", "but", "not", "you", "all", "can", "had", "her", "was", "one",
    "our", "out", "has", "his", "how", "its", "let", "may", "new", "now", "old", "see", "way",
    "who", "did", "get", "him", "with", "this", "that", "from", "have", "been", "said",
    "each", "will", "there", "their", "what", "about", "which", "when", "make", "like",
    "just", "over", "such", "take", "than", "them", "very", "after", "would", "these",
    "other", "into", "could", "your", "return", "const", "function", "export", "default",
    "import", "true", "false", "null", "undefined", "string", "number", "boolean", "void",
    "class", "interface", "type"].map String.toList

/-- The text with a space for every character that is neither blank nor part of a word. -/
def spacePunctuation (s : Text) : Text :=
  s.map fun c => if isWordChar c || isBlankChar c then c else ' '

/-- Whether a lowered word is a search term. -/
def isTerm (w : Text) : Bool :=
  decide (2 < w.length) && !stopWords.contains w

/-- The search terms of a text, in order and with repetitions. -/
def Text.terms (s : Text) : List Text :=
  (spacePunctuation s).lower.words.filter isTerm

end SourceIndex
