import ComponentAssembly.Host
import ComponentAssembly.Inspect
import ComponentAssembly.Proofs.Accounting
import ComponentAssembly.Proofs.ImplicitCalls
import ComponentAssembly.Proofs.Nesting
import ComponentAssembly.Proofs.Permanence
import ComponentAssembly.Proofs.PluginListing
import ComponentAssembly.Proofs.PluginMemo
import ComponentAssembly.Proofs.Recovery
import ComponentAssembly.Proofs.Reinstallation
import ComponentAssembly.Proofs.Singletons
import ComponentAssembly.Proofs.LazyLookups
import ComponentAssembly.Proofs.DependencyLookups
import ComponentAssembly.Proofs.Suppliers
import ComponentAssembly.Proofs.InstallationOrder
import ComponentAssembly.Proofs.Avoidance
import ComponentAssembly.Proofs.Rebinding
import ComponentAssembly.Proofs.Ownership
import ComponentAssembly.Proofs.Reading
import ComponentAssembly.Proofs.Traversal
import ComponentAssembly.Proofs.Annotation
import ComponentAssembly.Proofs.EmptyNodes
import ComponentAssembly.Proofs.Release
import ComponentAssembly.Proofs.Deferral
import ComponentAssembly.Proofs.Consumption
