import TreeQuery.Path

/-!
# Settings

Where the command line looks for sources, checklists and answers when it is not told.
-/

namespace TreeQuery

/-- What can be set for all commands. -/
structure Settings where
  /-- The file or directory of sources. -/
  codePath : String
  /-- Write down what is going on. -/
  verbose : Bool
  /-- The directory of the sources that checklists are about. -/
  answerDir : String
  /-- The directory of checklists. -/
  proofDir : String
  /-- Nothing was set. -/
  isDefault : Bool
  deriving DecidableEq, Repr

namespace Settings

/-- The settings if nothing is set. -/
def standard : Settings where
  codePath := "/code"
  verbose := false
  answerDir := "answers"
  proofDir := "tests"
  isDefault := true

/-- The source that a checklist is about (`Settings::answer_for`): of the same stem, in the
    directory of answers. A checklist without a stem has none. -/
def answerFor? (s : Settings) (checklist : String) : Option String :=
  (Path.stem? checklist).map fun stem => Path.withExtension (Path.join s.answerDir stem) "php"

end Settings

end TreeQuery
