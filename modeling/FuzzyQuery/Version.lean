import FuzzyQuery.Text

/-!
# Version

The version is the one of the installed package, and `0.0.0` where none is installed.
-/

namespace FuzzyQuery

def version (installed : Option Text) : Text := installed.getD "0.0.0".toList

end FuzzyQuery
