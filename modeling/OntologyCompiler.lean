import OntologyCompiler.Files.Tree
import OntologyCompiler.Main
import OntologyCompiler.Proofs.AuthoredSchema
import OntologyCompiler.Proofs.Checking
import OntologyCompiler.Proofs.ClaimRuns
import OntologyCompiler.Proofs.Dialects
import OntologyCompiler.Proofs.DocumentRoundTrip
import OntologyCompiler.Proofs.GeneratedComments
import OntologyCompiler.Proofs.Granularity
import OntologyCompiler.Proofs.InfoBlock
import OntologyCompiler.Proofs.LastWrite
import OntologyCompiler.Proofs.PathTemplate
import OntologyCompiler.Proofs.Policies
import OntologyCompiler.Proofs.Python.Capture
import OntologyCompiler.Proofs.References
import OntologyCompiler.Proofs.Renaming
import OntologyCompiler.Proofs.Reordering
import OntologyCompiler.Proofs.Replacements
import OntologyCompiler.Proofs.SecurityScheme
import OntologyCompiler.Proofs.TypeScript.Array
import OntologyCompiler.Proofs.Yaml.Distinct
import OntologyCompiler.Proofs.Yaml.Inline
import OntologyCompiler.Proofs.Yaml.Literal
import OntologyCompiler.Proofs.Yaml.Nesting
import OntologyCompiler.Proofs.Yaml.RoundTrip
